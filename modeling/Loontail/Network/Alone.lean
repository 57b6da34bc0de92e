import Loontail.Network.Requests

/-! # Requests that run alone

A request handled with nothing in between sees the database change by its own
statements only: what it checked still holds when it acts on it. -/

namespace Loontail

open Concurrency Network

structure Moment where
  database : Database
  clock : Timestamp

def Service.moment (service : Service) : Moment := ⟨service.database, service.clock⟩

/-- Every way the operation can go leads to a moment in which `post` holds. -/
def Moment.follows (moment : Moment) :
    (operation : Operation) → (operation.Result → Moment → Prop) → Prop
  | .statement query, post =>
      (∀ error, post (.error error) moment) ∧
      ∀ reply database, query.execute moment.clock moment.database = .ok (reply, database) →
        post (.ok reply) ⟨database, moment.clock⟩
  | .begin, post =>
      (∀ error, post (.error error) moment) ∧ ∀ transaction, post (.ok transaction) moment
  | .rollback _, post => post () moment
  | .now, post => post moment.clock moment
  | .tick elapsed, post => post () ⟨moment.database, moment.clock + elapsed⟩
  | .signaling _, post => ∀ result, post result moment
  | .relay _, post => ∀ result, post result moment

theorem Moment.follows_mono {moment : Moment} {operation : Operation}
    {strong weak : operation.Result → Moment → Prop}
    (implies : ∀ result following, strong result following → weak result following)
    (follows : moment.follows operation strong) : moment.follows operation weak := by
  cases operation with
  | statement statement =>
      exact ⟨fun error => implies _ _ (follows.1 error),
        fun reply database executed => implies _ _ (follows.2 reply database executed)⟩
  | begin =>
      exact ⟨fun error => implies _ _ (follows.1 error),
        fun transaction => implies _ _ (follows.2 transaction)⟩
  | signaling operation => exact fun result => implies _ _ (follows result)
  | relay operation => exact fun result => implies _ _ (follows result)
  | _ => exact implies _ _ follows

theorem Moment.follows_occurs {before after : Service} {operation : Operation}
    {result : operation.Result} {post : operation.Result → Moment → Prop}
    (follows : before.moment.follows operation post)
    (occurs : network.Occurs before operation result after) : post result after.moment := by
  cases operation with
  | statement statement =>
      rcases occurs_statement occurs with
        ⟨error, rfl, rfl⟩ | ⟨reply, database, rfl, executed, rfl⟩
      · exact follows.1 error
      · exact follows.2 reply database executed
  | begin =>
      rcases occurs with ⟨-, performed⟩ | ⟨fault, rfl⟩
      · cases performed
        exact follows.2 _
      · cases fault
        exact follows.1 _
  | signaling operation =>
      rcases occurs with ⟨-, performed⟩ | ⟨fault, -⟩
      · cases operation <;> cases performed <;> exact follows _
      · cases fault
  | relay operation =>
      rcases occurs with ⟨-, performed⟩ | ⟨fault, -⟩
      · cases operation <;> cases performed <;> exact follows _
      · cases fault
  | _ =>
      rcases occurs with ⟨-, performed⟩ | ⟨fault, -⟩
      · cases performed
        exact follows
      · cases fault

@[reducible] def Logic.alone (guard : Moment → Operation → Prop) : Logic network where
  Situation := Moment
  admits := fun moment operation post => guard moment operation ∧ moment.follows operation post
  mono := fun implies admitted => ⟨admitted.1, Moment.follows_mono implies admitted.2⟩

section Rules

variable {guard : Moment → Operation → Prop} {moment : Moment}

@[simp] theorem alone_admits (operation : Operation)
    (post : operation.Result → Moment → Prop) :
    (Logic.alone guard).admits moment operation post ↔
      guard moment operation ∧ moment.follows operation post := Iff.rfl

namespace Moment

@[simp] theorem follows_statement (statement : Statement)
    (post : Except DatabaseError statement.Reply → Moment → Prop) :
    moment.follows (.statement statement) post ↔ (∀ error, post (.error error) moment) ∧
      ∀ reply database,
        statement.execute moment.clock moment.database = .ok (reply, database) →
          post (.ok reply) ⟨database, moment.clock⟩ := Iff.rfl

@[simp] theorem follows_begin (post : Except DatabaseError Transaction → Moment → Prop) :
    moment.follows .begin post ↔
      (∀ error, post (.error error) moment) ∧ ∀ transaction, post (.ok transaction) moment :=
  Iff.rfl

@[simp] theorem follows_rollback (transaction : Transaction) (post : Unit → Moment → Prop) :
    moment.follows (.rollback transaction) post ↔ post () moment := Iff.rfl

@[simp] theorem follows_now (post : Timestamp → Moment → Prop) :
    moment.follows .now post ↔ post moment.clock moment := Iff.rfl

@[simp] theorem follows_signaling (operation : SignalingOperation)
    (post : operation.Result → Moment → Prop) :
    moment.follows (.signaling operation) post ↔ ∀ result, post result moment := Iff.rfl

end Moment

end Rules

theorem uses_alone {Outcome : Type} {guard : Moment → Operation → Prop}
    {allowed : Operation → Prop} {process : Process network Outcome}
    (free : ∀ operation, allowed operation → ∀ moment, guard moment operation)
    (uses : process.Uses allowed) (moment : Moment) :
    process.Meets (Logic.alone guard) (fun _ _ => True) moment := by
  induction process generalizing moment with
  | done => trivial
  | call operation next induction =>
      refine ⟨free operation uses.1 moment, ?_⟩
      have rest : ∀ result following,
          (next result).Meets (Logic.alone guard) (fun _ _ => True) following :=
        fun result => induction result (uses.2 result)
      cases operation with
      | statement statement => exact ⟨fun error => rest _ _, fun reply database _ => rest _ _⟩
      | begin => exact ⟨fun error => rest _ _, fun transaction => rest _ _⟩
      | signaling operation => exact fun result => rest _ _
      | relay operation => exact fun result => rest _ _
      | _ => exact rest _ _

theorem Handler.Serves.alone {Value : Type} {guard : Moment → Operation → Prop}
    {purpose : Purpose} {handler : Handler Value}
    (free : ∀ operation, Handler.Serving purpose operation → ∀ moment, guard moment operation)
    (serves : handler.Serves purpose) (moment : Moment) :
    handler.Meets (Logic.alone guard) (fun _ _ => True) (fun _ _ => True) moment :=
  Handler.meets_run.mp (uses_alone free serves moment)

abbrev Guarded (guard : Request → Moment → Operation → Prop) :
    Pool network Request (Except AppError Reply) → Prop :=
  Pool.Kept fun request event => guard request event.before.moment event.operation

/-- They do when requests that run alone meet their guards, and those taken step
by step are never guarded. -/
theorem guarded_turn {guard : Request → Moment → Operation → Prop}
    (stepwise : Request → Prop) {state : AppState}
    (atomic : ∀ request moment, (handle state request).Meets (Logic.alone (guard request))
      (fun _ _ => True) moment)
    (single : ∀ request, stepwise request → (handle state request).Uses
      fun operation => ∀ moment, guard request moment operation)
    {pool next : Pool network Request (Except AppError Reply)} {choice : Turn Request}
    (guarded : Guarded guard pool)
    (allowed : ∀ request, choice = .move (.start request) → stepwise request)
    (turned : pool.turn (handle state) choice = some next) : Guarded guard next := by
  refine Pool.kept_turn
    (fun request index faults service history outcome after later executed => ?_)
    (fun request isStepwise => (single request isStepwise).mono
      fun operation free _ before _ _ => free before.moment) guarded allowed turned
  have sound : ∀ before operation result after following,
      (Logic.alone (guard request)).admits before.moment operation following →
      network.Occurs before operation result after →
      guard request before.moment operation ∧ following result after.moment :=
    fun before operation result after following admitted occurs =>
      ⟨admitted.1, Moment.follows_occurs admitted.2 occurs⟩
  exact (@Process.execute_meets network _ (Logic.alone (guard request)) index Service.moment
    (fun event => guard request event.before.moment event.operation) _ sound _ faults service
    after history later outcome (atomic request service.moment) executed).2

end Loontail
