import Loontail.Concurrency.Trace
import Loontail.Network.Service

/-! # Request handlers

A handler is a process on the service that may stop early with an error. The
rules below judge a handler part by part. -/

namespace Loontail

open Concurrency

abbrev Handler (Reply : Type) := ExceptT AppError (Process network) Reply

namespace Handler

variable {Reply Value : Type}

def operate (operation : Operation) : Handler operation.Result :=
  ExceptT.mk (.call operation fun result => .done (.ok result) :
    Process network (Except AppError operation.Result))

/-- `sqlx::query(…).await`, its error left to the caller. -/
def attempt (statement : Statement) :
    Handler (Except DatabaseError statement.Reply) :=
  operate (.statement statement)

/-- `sqlx::query(…).await?`. -/
def query (statement : Statement) : Handler statement.Reply := do
  match ← attempt statement with
  | .ok reply => pure reply
  | .error error => throw (.database error)

def insertError (message : String) : DatabaseError → AppError
  | .uniqueViolation => .conflict message
  | error => .database error

def insertUnique (statement : Statement) (message : String) :
    Handler statement.Reply := do
  match ← attempt statement with
  | .ok reply => pure reply
  | .error error => throw (insertError message error)

/-- `if condition { return Err(error); }`. -/
def refuse (condition : Bool) (error : AppError) : Handler Unit :=
  if condition then throw error else pure ()

/-- `.ok_or_else(|| error)?`. -/
def okOr (row : Option Value) (error : AppError) : Handler Value :=
  match row with
  | some value => pure value
  | none => throw error

/-- A call that panics ends the request with nothing more done. -/
def orPanic (value : Option Value) : Handler Value :=
  match value with
  | some value => pure value
  | none => throw (.internal "panic")

def whenever (condition : Bool) (handler : Handler Unit) : Handler Unit :=
  if condition then handler else pure ()

def now : Handler Timestamp := operate .now

/-- `state.pool.begin().await?`. -/
def begin : Handler Transaction := do
  match ← operate .begin with
  | .ok transaction => pure transaction
  | .error error => throw (.database error)

def transactionally (body : Transaction → Handler Reply) : Handler Reply := do
  let transaction ← begin
  tryCatch (body transaction) fun error => do
    operate (.rollback transaction)
    throw error

def logged (handler : Handler Unit) : Handler Unit :=
  tryCatch handler fun _ => pure ()

def sendTo (userId : Uuid) (event : ServerEvent) : Handler Unit :=
  operate (.signaling (.sendTo userId event))

/-! ## Judging handlers -/

/-- The process of the handler ends in `onOk` or in `onError`. -/
def Meets (handler : Handler Reply) (logic : Logic network)
    (onOk : Reply → logic.Situation → Prop)
    (onError : AppError → logic.Situation → Prop) (situation : logic.Situation) : Prop :=
  Process.Meets logic
    (fun outcome following => match outcome with
      | .ok reply => onOk reply following
      | .error error => onError error following)
    handler.run situation

section Rules

variable {logic : Logic network} {onOk : Reply → logic.Situation → Prop}
  {onError : AppError → logic.Situation → Prop} {situation : logic.Situation}

theorem Meets.mono {strong : Reply → logic.Situation → Prop}
    {strongError : AppError → logic.Situation → Prop} {handler : Handler Reply}
    (meets : handler.Meets logic strong strongError situation)
    (ok : ∀ reply following, strong reply following → onOk reply following)
    (error : ∀ error following, strongError error following → onError error following) :
    handler.Meets logic onOk onError situation :=
  Process.Meets.mono (fun outcome following holds => match outcome with
    | .ok reply => ok reply following holds
    | .error failure => error failure following holds) meets

@[simp] theorem meets_pure (reply : Reply) :
    (pure reply : Handler Reply).Meets logic onOk onError situation ↔
      onOk reply situation := Iff.rfl

@[simp] theorem meets_throw (error : AppError) :
    (throw error : Handler Reply).Meets logic onOk onError situation ↔
      onError error situation := Iff.rfl

@[simp] theorem meets_bind (handler : Handler Value) (next : Value → Handler Reply) :
    (handler >>= next).Meets logic onOk onError situation ↔
      handler.Meets logic
        (fun value following => (next value).Meets logic onOk onError following)
        onError situation := by
  refine (Process.meets_bind handler.run _ situation).trans (iff_of_eq ?_)
  unfold Meets
  congr 1
  funext outcome following
  cases outcome <;> rfl

@[simp] theorem meets_map (apply : Value → Reply) (handler : Handler Value) :
    (apply <$> handler).Meets logic onOk onError situation ↔
      handler.Meets logic (fun value following => onOk (apply value) following)
        onError situation := by
  rw [map_eq_pure_bind, meets_bind]
  simp only [meets_pure]

@[simp] theorem meets_tryCatch (handler : Handler Reply)
    (recover : AppError → Handler Reply) :
    (tryCatch handler recover).Meets logic onOk onError situation ↔
      handler.Meets logic onOk
        (fun error following => (recover error).Meets logic onOk onError following)
        situation := by
  refine (Process.meets_bind handler.run _ situation).trans (iff_of_eq ?_)
  unfold Meets
  congr 1
  funext outcome following
  cases outcome <;> rfl

@[simp] theorem meets_ite (condition : Prop) [Decidable condition]
    (yes no : Handler Reply) :
    (if condition then yes else no).Meets logic onOk onError situation ↔
      (condition → yes.Meets logic onOk onError situation) ∧
        (¬condition → no.Meets logic onOk onError situation) := by
  split <;> simp_all

@[simp] theorem meets_operate (operation : Operation)
    {onOk : operation.Result → logic.Situation → Prop} :
    @Meets (no_index operation.Result) (operate operation) logic onOk onError situation ↔
      logic.admits situation operation onOk := Iff.rfl

@[simp] theorem meets_attempt (statement : Statement)
    {onOk : Except DatabaseError statement.Reply → logic.Situation → Prop} :
    @Meets (no_index (Except DatabaseError statement.Reply)) (attempt statement) logic
        onOk onError situation ↔
      logic.admits situation (.statement statement) onOk := Iff.rfl

@[simp] theorem meets_query (statement : Statement)
    {onOk : statement.Reply → logic.Situation → Prop} :
    @Meets (no_index statement.Reply) (query statement) logic onOk onError situation ↔
      logic.admits situation (.statement statement) fun result following =>
        match result with
        | .ok reply => onOk reply following
        | .error error => onError (.database error) following := by
  rw [query, meets_bind, meets_attempt]
  refine iff_of_eq (congrArg _ ?_)
  funext result following
  cases result <;> rfl

@[simp] theorem meets_insertUnique (statement : Statement) (message : String)
    {onOk : statement.Reply → logic.Situation → Prop} :
    @Meets (no_index statement.Reply) (insertUnique statement message) logic onOk onError
        situation ↔
      logic.admits situation (.statement statement) fun result following =>
        match result with
        | .ok reply => onOk reply following
        | .error error => onError (insertError message error) following := by
  rw [insertUnique, meets_bind, meets_attempt]
  refine iff_of_eq (congrArg _ ?_)
  funext result following
  cases result <;> rfl

@[simp] theorem meets_refuse (condition : Bool) (error : AppError)
    {onOk : Unit → logic.Situation → Prop} :
    (refuse condition error).Meets logic onOk onError situation ↔
      (condition = true → onError error situation) ∧
        (condition = false → onOk () situation) := by
  cases condition <;> simp [refuse]

@[simp] theorem meets_okOr (row : Option Value) (error : AppError)
    {onOk : Value → logic.Situation → Prop} :
    (okOr row error).Meets logic onOk onError situation ↔
      (row = none → onError error situation) ∧
        ∀ value, row = some value → onOk value situation := by
  cases row <;> simp [okOr]

@[simp] theorem meets_orPanic (value : Option Value)
    {onOk : Value → logic.Situation → Prop} :
    (orPanic value).Meets logic onOk onError situation ↔
      (value = none → onError (.internal "panic") situation) ∧
        ∀ present, value = some present → onOk present situation := by
  cases value <;> simp [orPanic]

@[simp] theorem meets_whenever (condition : Bool) (handler : Handler Unit)
    {onOk : Unit → logic.Situation → Prop} :
    (whenever condition handler).Meets logic onOk onError situation ↔
      (condition = true → handler.Meets logic onOk onError situation) ∧
        (condition = false → onOk () situation) := by
  cases condition <;> simp [whenever]

@[simp] theorem meets_now {onOk : Timestamp → logic.Situation → Prop} :
    now.Meets logic onOk onError situation ↔ logic.admits situation .now onOk := Iff.rfl

@[simp] theorem meets_begin {onOk : Transaction → logic.Situation → Prop} :
    begin.Meets logic onOk onError situation ↔
      logic.admits situation .begin fun result following =>
        match result with
        | .ok transaction => onOk transaction following
        | .error error => onError (.database error) following := by
  rw [begin, meets_bind, meets_operate]
  refine iff_of_eq (congrArg _ ?_)
  funext result following
  cases result <;> rfl

@[simp] theorem meets_transactionally (body : Transaction → Handler Reply) :
    (transactionally body).Meets logic onOk onError situation ↔
      begin.Meets logic (fun transaction following =>
        (body transaction).Meets logic onOk (fun error later =>
          logic.admits later (.rollback transaction) fun _ last => onError error last)
          following) onError situation := by
  rw [transactionally, meets_bind]
  simp only [meets_tryCatch, meets_bind, meets_throw]
  exact Iff.rfl

@[simp] theorem meets_logged (handler : Handler Unit)
    {onOk : Unit → logic.Situation → Prop} :
    (logged handler).Meets logic onOk onError situation ↔
      handler.Meets logic onOk (fun _ following => onOk () following) situation := by
  rw [logged, meets_tryCatch]
  simp only [meets_pure]

@[simp] theorem meets_sendTo (userId : Uuid) (event : ServerEvent)
    {onOk : Unit → logic.Situation → Prop} :
    (sendTo userId event).Meets logic onOk onError situation ↔
      logic.admits situation (.signaling (.sendTo userId event)) onOk := Iff.rfl

end Rules

/-! ## Footprints -/

def Uses (allowed : Operation → Prop) (handler : Handler Reply) : Prop :=
  @Process.Uses network _ allowed handler.run

theorem meets_run {logic : Logic network} {post : logic.Situation → Prop}
    {handler : Handler Reply} {situation : logic.Situation} :
    Process.Meets logic (fun _ following => post following) handler.run situation ↔
      handler.Meets logic (fun _ following => post following)
        (fun _ following => post following) situation := by
  unfold Meets
  refine iff_of_eq (congrFun (congrFun (congrArg _ ?_) _) _)
  funext outcome following
  cases outcome <;> rfl

theorem uses_iff {allowed : Operation → Prop} {handler : Handler Reply} :
    handler.Uses allowed ↔
      handler.Meets (.footprint allowed) (fun _ _ => True) (fun _ _ => True) () :=
  meets_run

theorem Uses.meets {allowed : Operation → Prop} {logic : Logic network}
    {onOk : Reply → logic.Situation → Prop}
    {onError : AppError → logic.Situation → Prop} {situation : logic.Situation}
    (ignored : ∀ operation, allowed operation → logic.Ignores situation operation)
    {handler : Handler Reply} (uses : handler.Uses allowed)
    (ok : ∀ reply, onOk reply situation) (error : ∀ error, onError error situation) :
    handler.Meets logic onOk onError situation :=
  Process.Uses.meets ignored uses fun outcome => match outcome with
    | .ok reply => ok reply
    | .error failure => error failure

/-- The operations of one purpose and the ordinary ones, and those of a
transaction where the purpose has one. -/
def Serving (purpose : Purpose) (operation : Operation) : Prop :=
  operation.purpose = .ordinary ∨ operation.purpose = purpose ∨
    operation.purpose = .transaction ∧ purpose.locks = true

theorem Serving.ordinary {operation : Operation} (serving : Serving .ordinary operation) :
    operation.purpose = .ordinary := by
  rcases serving with ordinary | ordinary | ⟨-, locks⟩
  · exact ordinary
  · exact ordinary
  · cases locks

def Serves (handler : Handler Reply) (purpose : Purpose) : Prop :=
  handler.Uses (Serving purpose)

theorem Uses.footprint {allowed : Operation → Prop} {handler : Handler Reply}
    {onOk : Reply → Unit → Prop} {onError : AppError → Unit → Prop}
    (uses : handler.Uses allowed) (ok : ∀ reply, onOk reply ())
    (error : ∀ error, onError error ()) :
    handler.Meets (.footprint allowed) onOk onError () := by
  refine Uses.meets ?_ uses ok error
  exact fun operation allowed post holds => ⟨allowed, holds⟩

theorem Serves.meets {purpose : Purpose} {handler : Handler Reply}
    {onOk : Reply → Unit → Prop} {onError : AppError → Unit → Prop}
    (serves : handler.Serves purpose) (ok : ∀ reply, onOk reply ())
    (error : ∀ error, onError error ()) :
    handler.Meets (.footprint (Serving purpose)) onOk onError () :=
  Uses.footprint serves ok error

theorem forall_except {Error : Type} {holds : Except Error Value → Prop} :
    (∀ result, holds result) ↔
      (∀ value, holds (.ok value)) ∧ ∀ error, holds (.error error) :=
  ⟨fun all => ⟨fun value => all (.ok value), fun error => all (.error error)⟩,
    fun both result => match result with
      | .ok value => both.1 value
      | .error error => both.2 error⟩

@[simp] theorem footprint_admits (allowed : Operation → Prop) (operation : Operation)
    (post : operation.Result → Unit → Prop) :
    (Logic.footprint allowed : Logic network).admits () operation post ↔
      allowed operation ∧ ∀ result, post result () := Iff.rfl

end Handler

end Loontail
