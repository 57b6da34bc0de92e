import Loontail.Bundles.Service
import Loontail.Concurrency.Evaluate
import Loontail.Concurrency.Protocol

/-! # Rules for the handlers of the registry -/

/-! ## Handlers that run by themselves

What a part of a handler meets where nothing comes between its operations and none of
them fails. -/

namespace Loontail.Bundles

open Concurrency Disk

variable {service : Service} {onError : AppError → Service → Prop}

theorem alone_query (statement : Statement) {onOk : statement.Reply → Service → Prop} :
    @Fallible.Meets registry AppError statement.Reply (query statement) (.alone registry) onOk
        onError service ↔
      match statement.execute service.database with
      | .ok (reply, database) => onOk reply { service with database }
      | .error error => onError (.database error) service := by
  rw [meets_query]
  simp only [Service.perform]
  cases statement.execute service.database <;> rfl

theorem alone_begin {onOk : Unit → Service → Prop} :
    @Fallible.Meets registry AppError Unit begin (.alone registry) onOk onError service ↔
      onOk () service := meets_begin

/-- A statement on a transaction sees what the statements before it have made. -/
theorem alone_inside {log : List Statement} {seen : Database}
    (replayed : replay service.database log = .ok seen) (statement : Statement)
    {onOk : statement.Reply → Service → Prop} :
    @Fallible.Meets registry AppError statement.Reply (inside log statement) (.alone registry)
        onOk onError service ↔
      match statement.execute seen with
      | .ok (reply, _) => onOk reply service
      | .error error => onError (.database error) service := by
  rw [meets_inside]
  simp only [Service.perform, replayed, Except.bind]
  cases statement.execute seen <;> rfl

theorem alone_commit (log : List Statement) {onOk : Unit → Service → Prop} :
    @Fallible.Meets registry AppError Unit (commit log) (.alone registry) onOk onError service ↔
      match replay service.database log with
      | .ok database => onOk () { service with database }
      | .error error => onError (.database error) service := by
  rw [meets_commit]
  simp only [Service.perform]
  cases replay service.database log <;> rfl

theorem alone_attempt (call : DiskCall)
    {onOk : Except IoError call.Answer → Service → Prop} :
    @Fallible.Meets registry AppError (Except IoError call.Answer) (attempt call)
        (.alone registry) onOk onError service ↔
      onOk (call.perform service.disk).1 { service with disk := (call.perform service.disk).2 } :=
  Iff.rfl

theorem alone_io (call : DiskCall) (context : String) {onOk : call.Answer → Service → Prop} :
    @Fallible.Meets registry AppError call.Answer (io call context) (.alone registry) onOk
        onError service ↔
      match (call.perform service.disk).1 with
      | .ok answer => onOk answer { service with disk := (call.perform service.disk).2 }
      | .error error => onError (.internal (context ++ ": " ++ error.text))
          { service with disk := (call.perform service.disk).2 } := meets_io call context

theorem alone_pathExists (path : List String) {onOk : Bool → Service → Prop} :
    @Fallible.Meets registry AppError Bool (pathExists path) (.alone registry) onOk onError
        service ↔
      onOk (service.disk.present path) service := meets_pathExists path

theorem io_done {call : DiskCall} {answer : call.Answer} {disk : Builds} {context : String}
    {onOk : call.Answer → Service → Prop}
    (performed : call.perform service.disk = (.ok answer, disk))
    (next : onOk answer { service with disk }) :
    @Fallible.Meets registry AppError call.Answer (io call context) (.alone registry) onOk
      onError service := by
  rw [alone_io, performed]
  exact next

theorem io_failed {call : DiskCall} {error : IoError} {context : String}
    {onOk : call.Answer → Service → Prop}
    (performed : call.perform service.disk = (.error error, service.disk))
    (next : ∀ error, onError error service) :
    @Fallible.Meets registry AppError call.Answer (io call context) (.alone registry) onOk
      onError service := by
  rw [alone_io, performed]
  exact next _

theorem query_done {statement : Statement} {reply : statement.Reply} {database : Database}
    {onOk : statement.Reply → Service → Prop}
    (executed : statement.execute service.database = .ok (reply, database))
    (next : onOk reply { service with database }) :
    @Fallible.Meets registry AppError statement.Reply (query statement) (.alone registry) onOk
      onError service := by
  rw [alone_query, executed]
  exact next

end Loontail.Bundles

/-! ## Which operations a handler takes

A handler is judged by the operations that it can take, whatever they answer. -/

namespace Loontail.Bundles

open Concurrency Disk

variable {allowed : Operation → Prop}

abbrev Takes (allowed : Operation → Prop) {Reply : Type} (part : Handler Reply) : Prop :=
  part.Meets (.footprint allowed) (fun _ _ => True) (fun _ _ => True) ()

theorem Takes.uses {Reply : Type} {part : Handler Reply} (takes : Takes allowed part) :
    part.run.Uses allowed := Fallible.meets_run.mpr takes

theorem Takes.mono {wide : Operation → Prop} {Reply : Type} {part : Handler Reply}
    (takes : Takes allowed part) (implies : ∀ operation, allowed operation → wide operation) :
    Takes wide part :=
  Fallible.meets_run.mp (takes.uses.mono implies)

theorem takes_bind {Value Reply : Type} {first : Handler Value} {next : Value → Handler Reply}
    (takes : Takes allowed first) (continued : ∀ value, Takes allowed (next value)) :
    Takes allowed (first >>= next) :=
  (Fallible.meets_bind first next).mpr
    (Fallible.Meets.mono takes (fun value _ _ => continued value) fun _ _ _ => trivial)

theorem takes_attempt {call : DiskCall} (taken : allowed (.disk call)) :
    @Takes allowed (Except IoError call.Answer) (attempt call) := ⟨taken, fun _ => trivial⟩

theorem takes_io {call : DiskCall} (context : String) (taken : allowed (.disk call)) :
    @Takes allowed call.Answer (io call context) := by
  refine (meets_io call context).mpr ⟨taken, fun result => ?_⟩
  cases result <;> trivial

theorem takes_pathExists {path : List String} (taken : allowed (.disk (.tryExists path))) :
    @Takes allowed Bool (pathExists path) := by
  refine (meets_pathExists path).mpr ⟨taken, fun result => ?_⟩
  cases result <;> trivial

theorem takes_query {statement : Statement} (taken : allowed (.statement statement)) :
    @Takes allowed statement.Reply (query statement) := by
  refine (meets_query statement).mpr ⟨taken, fun result => ?_⟩
  cases result <;> trivial

theorem takes_begin (taken : allowed .begin) : Takes allowed begin := by
  refine meets_begin.mpr ⟨taken, fun result => ?_⟩
  cases result <;> trivial

theorem takes_inside {log : List Statement} {statement : Statement}
    (taken : allowed (.inside log statement)) :
    @Takes allowed statement.Reply (inside log statement) := by
  refine (meets_inside log statement).mpr ⟨taken, fun result => ?_⟩
  cases result <;> trivial

theorem takes_commit {log : List Statement} (taken : allowed (.commit log)) :
    Takes allowed (commit log) := by
  refine (meets_commit log).mpr ⟨taken, fun result => ?_⟩
  cases result <;> trivial

theorem takes_lift {Value : Type} (result : Except AppError Value) :
    Takes allowed (Fallible.lift result) :=
  (Fallible.meets_lift _).mpr ⟨fun _ _ => trivial, fun _ _ => trivial⟩

theorem takes_okOr {Value : Type} (value : Option Value) (error : AppError) :
    Takes allowed (Fallible.okOr value error) :=
  (Fallible.meets_okOr _ _).mpr ⟨fun _ => trivial, fun _ _ => trivial⟩

theorem takes_refuse (condition : Bool) (error : AppError) :
    Takes allowed (Fallible.refuse condition error) :=
  (Fallible.meets_refuse _ _).mpr ⟨fun _ => trivial, fun _ => trivial⟩

theorem takes_observe {Reply : Type} {part : Handler Reply} (takes : Takes allowed part) :
    Takes allowed (observe part) := (meets_observe part).mpr takes

/-! ## Parts that need every operation -/

section Insists

theorem insists_query {statement : Statement} (taken : allowed (.statement statement)) :
    @Fallible.Insists registry AppError statement.Reply allowed (query statement) := by
  refine (meets_query statement).mpr ⟨taken, fun result => ?_⟩
  cases result with
  | ok reply => exact fun failed => failed.elim id nofun
  | error error => trivial

theorem insists_inside {log : List Statement} {statement : Statement}
    (taken : allowed (.inside log statement)) :
    @Fallible.Insists registry AppError statement.Reply allowed (inside log statement) := by
  refine (meets_inside log statement).mpr ⟨taken, fun result => ?_⟩
  cases result with
  | ok reply => exact fun failed => failed.elim id nofun
  | error error => trivial

theorem insists_lift {Value : Type} (result : Except AppError Value) :
    @Fallible.Insists registry AppError _ allowed (Fallible.lift result) :=
  (Fallible.meets_lift _).mpr ⟨fun _ _ => trivial, fun _ _ => id⟩

theorem insists_okOr {Value : Type} (value : Option Value) (error : AppError) :
    @Fallible.Insists registry AppError _ allowed (Fallible.okOr value error) :=
  (Fallible.meets_okOr _ _).mpr ⟨fun _ => trivial, fun _ _ => id⟩

theorem insists_refuse (condition : Bool) (error : AppError) :
    @Fallible.Insists registry AppError _ allowed (Fallible.refuse condition error) :=
  (Fallible.meets_refuse _ _).mpr ⟨fun _ => trivial, fun _ => id⟩

end Insists

end Loontail.Bundles

/-! ## Calls of the registry under a protocol

Each rule asks for what a protocol asks of the call, and for what follows the answer and
the error apart. -/

namespace Loontail.Bundles

open Concurrency Disk

variable {Request : Type} {protocol : Protocol registry Request} {phase : protocol.Phase}
  {onError : AppError → protocol.Phase → Prop}

theorem follows_query {statement : Statement}
    {onOk : statement.Reply → protocol.Phase → Prop}
    (allowed : protocol.allows phase (.statement statement))
    (failed : ∀ error, onError (.database error)
      (protocol.after phase (.statement statement) (.error error)))
    (answered : ∀ reply, onOk reply
      (protocol.after phase (.statement statement) (.ok reply))) :
    @Fallible.Meets registry AppError statement.Reply (query statement) protocol.logic onOk
      onError phase := by
  rw [meets_query]
  refine ⟨allowed, fun result => ?_⟩
  cases result with
  | ok reply => exact answered reply
  | error error => exact failed error

theorem follows_io {call : DiskCall} {context : String}
    {onOk : call.Answer → protocol.Phase → Prop}
    (allowed : protocol.allows phase (.disk call))
    (failed : ∀ error, onError (.internal (context ++ ": " ++ error.text))
      (protocol.after phase (.disk call) (.error error)))
    (answered : ∀ answer, onOk answer (protocol.after phase (.disk call) (.ok answer))) :
    @Fallible.Meets registry AppError call.Answer (io call context) protocol.logic onOk onError
      phase := by
  rw [meets_io]
  refine ⟨allowed, fun result => ?_⟩
  cases result with
  | ok answer => exact answered answer
  | error error => exact failed error

theorem follows_pathExists {path : List String} {onOk : Bool → protocol.Phase → Prop}
    (allowed : protocol.allows phase (.disk (.tryExists path)))
    (failed : ∀ error, onOk false
      (protocol.after phase (.disk (.tryExists path)) (.error error)))
    (answered : ∀ present, onOk present
      (protocol.after phase (.disk (.tryExists path)) (.ok present))) :
    (pathExists path).Meets protocol.logic onOk onError phase := by
  rw [meets_pathExists]
  refine ⟨allowed, fun result => ?_⟩
  cases result with
  | ok present => exact answered present
  | error error => exact failed error

end Loontail.Bundles
