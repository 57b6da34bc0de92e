import Loontail.Concurrency.Evaluate
import Loontail.Concurrency.Turn

/-! # Transactions

Processes that run statements on a database, by themselves or on a transaction, and that
call devices beside it. A transaction is known by the statements it has run; the others
see it when it commits. -/

namespace Concurrency

structure Dialect where
  Database : Type
  Statement : Type
  Error : Type
  Reply : Statement → Type
  execute : Database → (statement : Statement) → Except Error (Reply statement × Database)
  disconnected : Error

structure Device where
  State : Type
  Call : Type
  Answer : Call → Type
  perform : State → (call : Call) → Answer call × State
  fault : (call : Call) → Option (Answer call)

namespace Dialect

variable (dialect : Dialect)

/-- The database as the statements of a transaction have made it. -/
def replay (database : dialect.Database) :
    List dialect.Statement → Except dialect.Error dialect.Database
  | [] => .ok database
  | statement :: rest =>
      match dialect.execute database statement with
      | .ok (_, after) => replay after rest
      | .error error => .error error

variable {dialect} {database seen : dialect.Database} {log : List dialect.Statement}

theorem replay_append (database : dialect.Database) (first second : List dialect.Statement) :
    dialect.replay database (first ++ second) =
      (dialect.replay database first).bind fun middle => dialect.replay middle second := by
  induction first generalizing database with
  | nil => rfl
  | cons statement rest induction =>
      simp only [List.cons_append, replay]
      split
      · exact induction _
      · rfl

theorem replay_concat (replayed : dialect.replay database log = .ok seen)
    {statement : dialect.Statement} {reply : dialect.Reply statement} {after : dialect.Database}
    (executed : dialect.execute seen statement = .ok (reply, after)) :
    dialect.replay database (log ++ [statement]) = .ok after := by
  rw [replay_append, replayed]
  simp [Except.bind, replay, executed]

theorem replay_keeps {Inv : dialect.Database → Prop} {allowed : dialect.Statement → Prop}
    (keeps : ∀ statement before reply after, allowed statement → Inv before →
      dialect.execute before statement = .ok (reply, after) → Inv after)
    (all : ∀ statement ∈ log, allowed statement) (holds : Inv database)
    (replayed : dialect.replay database log = .ok seen) : Inv seen := by
  induction log generalizing database with
  | nil =>
      cases replayed
      exact holds
  | cons statement rest induction =>
      rw [replay] at replayed
      split at replayed
      · rename_i reply after executed
        have first := keeps statement database reply after (all _ (by simp)) holds executed
        exact induction (fun other member => all other (by simp [member])) first replayed
      · cases replayed

end Dialect

/-! ## The interface -/

structure Stores (dialect : Dialect) (device : Device) where
  database : dialect.Database
  devices : device.State

namespace Transactional

inductive Operation (dialect : Dialect) (device : Device) where
  | statement (statement : dialect.Statement)
  | begin
  | inside (log : List dialect.Statement) (statement : dialect.Statement)
  | commit (log : List dialect.Statement)
  | onDevice (call : device.Call)

variable {dialect : Dialect} {device : Device}

@[reducible] def Operation.Result : Operation dialect device → Type
  | .statement query => Except dialect.Error (dialect.Reply query)
  | .begin => Except dialect.Error Unit
  | .inside _ query => Except dialect.Error (dialect.Reply query)
  | .commit _ => Except dialect.Error Unit
  | .onDevice call => device.Answer call

def Operation.fault : (operation : Operation dialect device) → Option operation.Result
  | .statement _ => some (.error dialect.disconnected)
  | .begin => some (.error dialect.disconnected)
  | .inside .. => some (.error dialect.disconnected)
  | .commit _ => some (.error dialect.disconnected)
  | .onDevice call => device.fault call

def perform (stores : Stores dialect device) :
    (operation : Operation dialect device) → operation.Result × Stores dialect device
  | .statement statement =>
      match dialect.execute stores.database statement with
      | .ok (reply, database) => (.ok reply, { stores with database })
      | .error error => (.error error, stores)
  | .begin => (.ok (), stores)
  | .inside log statement =>
      ((dialect.replay stores.database log).bind fun seen =>
        (dialect.execute seen statement).map fun executed => executed.1, stores)
  | .commit log =>
      match dialect.replay stores.database log with
      | .ok database => (.ok (), { stores with database })
      | .error error => (.error error, stores)
  | .onDevice call =>
      let (answer, devices) := device.perform stores.devices call
      (answer, { stores with devices })

end Transactional

@[reducible] def Transactional (dialect : Dialect) (device : Device) : Interface where
  State := Stores dialect device
  Operation := Transactional.Operation dialect device
  Result := Transactional.Operation.Result
  ready := fun _ _ => true
  perform := Transactional.perform
  fault := Transactional.Operation.fault

namespace Transactional

variable {dialect : Dialect} {device : Device} {Error : Type}

/-! ## Processes -/

section Processes

variable (wrap : dialect.Error → Error)

def operate (operation : Operation dialect device) :
    Fallible (Transactional dialect device) Error operation.Result :=
  @Fallible.operate (Transactional dialect device) Error operation

def query (statement : dialect.Statement) :
    Fallible (Transactional dialect device) Error (dialect.Reply statement) := do
  match ← operate (.statement statement) with
  | .ok reply => pure reply
  | .error error => throw (wrap error)

def begin : Fallible (Transactional dialect device) Error Unit := do
  match ← operate .begin with
  | .ok () => pure ()
  | .error error => throw (wrap error)

def inside (log : List dialect.Statement) (statement : dialect.Statement) :
    Fallible (Transactional dialect device) Error (dialect.Reply statement) := do
  match ← operate (.inside log statement) with
  | .ok reply => pure reply
  | .error error => throw (wrap error)

def insideAll (log : List dialect.Statement) :
    List dialect.Statement → Fallible (Transactional dialect device) Error (List dialect.Statement)
  | [] => pure log
  | statement :: rest => do
      let _ ← inside wrap log statement
      insideAll (log ++ [statement]) rest

def commit (log : List dialect.Statement) :
    Fallible (Transactional dialect device) Error Unit := do
  match ← operate (.commit log) with
  | .ok () => pure ()
  | .error error => throw (wrap error)

end Processes

/-! ## How an operation can go -/

section Occurs

variable {before after : Stores dialect device}

theorem occurs_statement {statement : dialect.Statement}
    {result : Except dialect.Error (dialect.Reply statement)}
    (occurs : (Transactional dialect device).Occurs before (.statement statement) result after) :
    (∃ reply database, result = .ok reply ∧
      dialect.execute before.database statement = .ok (reply, database) ∧
      after = { before with database }) ∨
    ∃ error, result = .error error ∧ after = before := by
  rcases occurs with ⟨-, performed⟩ | ⟨fault, rfl⟩
  · simp only [perform] at performed
    split at performed
    · rename_i reply database executed
      cases performed
      exact .inl ⟨reply, database, rfl, executed, rfl⟩
    · rename_i error refused
      cases performed
      exact .inr ⟨error, rfl, rfl⟩
  · cases fault
    exact .inr ⟨_, rfl, rfl⟩

theorem occurs_inside {log : List dialect.Statement} {statement : dialect.Statement}
    {result : Except dialect.Error (dialect.Reply statement)}
    (occurs : (Transactional dialect device).Occurs before (.inside log statement) result after) :
    after = before ∧ ((∃ error, result = .error error) ∨
      ∃ seen reply database, result = .ok reply ∧
        dialect.replay before.database log = .ok seen ∧
        dialect.execute seen statement = .ok (reply, database)) := by
  rcases occurs with ⟨-, performed⟩ | ⟨fault, rfl⟩
  · obtain ⟨rfl, rfl⟩ := Prod.mk.inj performed
    refine ⟨rfl, ?_⟩
    cases replayed : dialect.replay before.database log with
    | error error => exact .inl ⟨error, rfl⟩
    | ok seen =>
        cases executed : dialect.execute seen statement with
        | error error => exact .inl ⟨error, by simp [Except.bind, executed, Except.map]⟩
        | ok done =>
            exact .inr ⟨seen, done.1, done.2, by simp [Except.bind, executed, Except.map], rfl,
              executed⟩
  · cases fault
    exact ⟨rfl, .inl ⟨_, rfl⟩⟩

theorem occurs_commit {log : List dialect.Statement} {result : Except dialect.Error Unit}
    (occurs : (Transactional dialect device).Occurs before (.commit log) result after) :
    (∃ database, result = .ok () ∧ dialect.replay before.database log = .ok database ∧
      after = { before with database }) ∨
    ∃ error, result = .error error ∧ after = before := by
  rcases occurs with ⟨-, performed⟩ | ⟨fault, rfl⟩
  · simp only [perform] at performed
    split at performed
    · rename_i database replayed
      cases performed
      exact .inl ⟨database, rfl, replayed, rfl⟩
    · rename_i error refused
      cases performed
      exact .inr ⟨error, rfl, rfl⟩
  · cases fault
    exact .inr ⟨_, rfl, rfl⟩

theorem occurs_onDevice {call : device.Call} {result : device.Answer call}
    (occurs : (Transactional dialect device).Occurs before (.onDevice call) result after) :
    (result = (device.perform before.devices call).1 ∧
      after = { before with devices := (device.perform before.devices call).2 }) ∨
    (device.fault call = some result ∧ after = before) := by
  rcases occurs with ⟨-, performed⟩ | ⟨fault, rfl⟩
  · obtain ⟨rfl, rfl⟩ := Prod.mk.inj performed
    exact .inl ⟨rfl, rfl⟩
  · exact .inr ⟨fault, rfl⟩

end Occurs

/-! ## Judging by any logic -/

section Rules

variable {logic : Logic (Transactional dialect device)} {wrap : dialect.Error → Error}
  {onError : Error → logic.Situation → Prop} {situation : logic.Situation}

@[simp] theorem meets_operate (operation : Operation dialect device)
    {onOk : operation.Result → logic.Situation → Prop} :
    @Fallible.Meets (Transactional dialect device) Error (no_index operation.Result)
        (operate operation) logic onOk onError situation ↔
      logic.admits situation operation onOk := Iff.rfl

abbrev Settled {Reply : Type} (wrap : dialect.Error → Error)
    (onOk : Reply → logic.Situation → Prop) (onError : Error → logic.Situation → Prop)
    (result : Except dialect.Error Reply) (following : logic.Situation) : Prop :=
  match result with
  | .ok reply => onOk reply following
  | .error error => onError (wrap error) following

theorem meets_query (statement : dialect.Statement)
    {onOk : dialect.Reply statement → logic.Situation → Prop} :
    @Fallible.Meets (Transactional dialect device) Error (no_index (dialect.Reply statement))
        (query wrap statement) logic onOk onError situation ↔
      logic.admits situation (.statement statement) (Settled wrap onOk onError) := by
  rw [query, Fallible.meets_bind, meets_operate]
  refine iff_of_eq (congrArg _ ?_)
  funext result following
  cases result <;> rfl

theorem meets_begin {onOk : Unit → logic.Situation → Prop} :
    (begin wrap).Meets logic onOk onError situation ↔
      logic.admits situation .begin (Settled wrap onOk onError) := by
  rw [begin, Fallible.meets_bind, meets_operate]
  refine iff_of_eq (congrArg _ ?_)
  funext result following
  cases result <;> rfl

theorem meets_inside (log : List dialect.Statement) (statement : dialect.Statement)
    {onOk : dialect.Reply statement → logic.Situation → Prop} :
    @Fallible.Meets (Transactional dialect device) Error (no_index (dialect.Reply statement))
        (inside wrap log statement) logic onOk onError situation ↔
      logic.admits situation (.inside log statement) (Settled wrap onOk onError) := by
  rw [inside, Fallible.meets_bind, meets_operate]
  refine iff_of_eq (congrArg _ ?_)
  funext result following
  cases result <;> rfl

theorem meets_commit (log : List dialect.Statement) {onOk : Unit → logic.Situation → Prop} :
    (commit wrap log).Meets logic onOk onError situation ↔
      logic.admits situation (.commit log) (Settled wrap onOk onError) := by
  rw [commit, Fallible.meets_bind, meets_operate]
  refine iff_of_eq (congrArg _ ?_)
  funext result following
  cases result <;> rfl

end Rules

/-! ## Whichever way it goes

The rules for processes of which any operation may fail. -/

section EveryWay

variable {wrap : dialect.Error → Error} {stores : Stores dialect device}
  {onError : Error → Stores dialect device → Prop} {log : List dialect.Statement}
  {seen : dialect.Database}

theorem everyWay_query {statement : dialect.Statement}
    {onOk : dialect.Reply statement → Stores dialect device → Prop}
    (failed : ∀ error, onError error stores)
    (granted : ∀ reply database, dialect.execute stores.database statement = .ok (reply, database) →
      onOk reply { stores with database }) :
    (query wrap statement).Meets (.everyWay _) onOk onError stores := by
  refine (meets_query statement).mpr fun result after occurs => ?_
  rcases occurs_statement occurs with ⟨reply, database, rfl, executed, rfl⟩ | ⟨error, rfl, rfl⟩
  · exact granted reply database executed
  · exact failed _

theorem everyWay_begin {onOk : Unit → Stores dialect device → Prop}
    (failed : ∀ error, onError error stores) (begun : onOk () stores) :
    (begin wrap).Meets (.everyWay _) onOk onError stores := by
  refine meets_begin.mpr fun result after occurs => ?_
  rcases occurs with ⟨-, performed⟩ | ⟨fault, rfl⟩
  · cases performed
    exact begun
  · cases fault
    exact failed _

theorem everyWay_inside {statement : dialect.Statement}
    {onOk : dialect.Reply statement → Stores dialect device → Prop}
    (replayed : dialect.replay stores.database log = .ok seen)
    (failed : ∀ error, onError error stores)
    (granted : ∀ reply after, dialect.execute seen statement = .ok (reply, after) →
      onOk reply stores) :
    (inside wrap log statement).Meets (.everyWay _) onOk onError stores := by
  refine (meets_inside log statement).mpr fun result after occurs => ?_
  obtain ⟨rfl, ⟨error, rfl⟩ | ⟨view, reply, database, rfl, known, executed⟩⟩ :=
    occurs_inside occurs
  · exact failed _
  · cases replayed.symm.trans known
    exact granted reply database executed

theorem everyWay_insideAll {statements : List dialect.Statement}
    {onOk : List dialect.Statement → Stores dialect device → Prop}
    (replayed : dialect.replay stores.database log = .ok seen)
    (failed : ∀ error, onError error stores)
    (granted : ∀ after, dialect.replay seen statements = .ok after →
      onOk (log ++ statements) stores) :
    (insideAll wrap log statements).Meets (.everyWay _) onOk onError stores := by
  induction statements generalizing log seen with
  | nil =>
      rw [List.append_nil] at granted
      exact granted seen rfl
  | cons statement rest induction =>
      refine (Fallible.meets_bind _ _).mpr (everyWay_inside replayed failed ?_)
      intro reply middle executed
      refine induction (Dialect.replay_concat replayed executed) ?_
      intro after continued
      rw [List.append_assoc]
      refine granted after ?_
      rw [Dialect.replay, executed]
      exact continued

theorem everyWay_commit {onOk : Unit → Stores dialect device → Prop}
    (replayed : dialect.replay stores.database log = .ok seen)
    (failed : ∀ error, onError error stores)
    (committed : onOk () { stores with database := seen }) :
    (commit wrap log).Meets (.everyWay _) onOk onError stores := by
  refine (meets_commit log).mpr fun result after occurs => ?_
  rcases occurs_commit occurs with ⟨database, rfl, known, rfl⟩ | ⟨error, rfl, rfl⟩
  · cases replayed.symm.trans known
    exact committed
  · exact failed _

end EveryWay

/-! ## By itself

The rules for processes that nothing interrupts and of which nothing fails. -/

section Alone

variable {wrap : dialect.Error → Error} {stores : Stores dialect device}
  {onError : Error → Stores dialect device → Prop} {log : List dialect.Statement}
  {seen : dialect.Database}

theorem alone_query (statement : dialect.Statement)
    {onOk : dialect.Reply statement → Stores dialect device → Prop} :
    @Fallible.Meets (Transactional dialect device) Error (no_index (dialect.Reply statement))
        (query wrap statement) (.alone _) onOk onError stores ↔
      match dialect.execute stores.database statement with
      | .ok (reply, database) => onOk reply { stores with database }
      | .error error => onError (wrap error) stores := by
  rw [meets_query]
  simp only [perform]
  cases dialect.execute stores.database statement <;> rfl

theorem alone_begin {onOk : Unit → Stores dialect device → Prop} :
    (begin wrap).Meets (.alone _) onOk onError stores ↔ onOk () stores := meets_begin

theorem alone_inside (replayed : dialect.replay stores.database log = .ok seen)
    (statement : dialect.Statement)
    {onOk : dialect.Reply statement → Stores dialect device → Prop} :
    @Fallible.Meets (Transactional dialect device) Error (no_index (dialect.Reply statement))
        (inside wrap log statement) (.alone _) onOk onError stores ↔
      match dialect.execute seen statement with
      | .ok (reply, _) => onOk reply stores
      | .error error => onError (wrap error) stores := by
  rw [meets_inside]
  simp only [perform, replayed, Except.bind]
  cases dialect.execute seen statement <;> rfl

theorem alone_insideAll {statements : List dialect.Statement} {after : dialect.Database}
    {onOk : List dialect.Statement → Stores dialect device → Prop}
    (replayed : dialect.replay stores.database log = .ok seen)
    (continued : dialect.replay seen statements = .ok after) :
    (insideAll wrap log statements).Meets (.alone _) onOk onError stores ↔
      onOk (log ++ statements) stores := by
  induction statements generalizing log seen with
  | nil =>
      rw [List.append_nil]
      rfl
  | cons statement rest induction =>
      rw [Dialect.replay] at continued
      split at continued
      · rename_i reply middle executed
        rw [insideAll, Fallible.meets_bind, alone_inside replayed, executed]
        rw [induction (Dialect.replay_concat replayed executed) continued, List.append_assoc]
        rfl
      · cases continued

theorem alone_commit (replayed : dialect.replay stores.database log = .ok seen)
    {onOk : Unit → Stores dialect device → Prop} :
    (commit wrap log).Meets (.alone _) onOk onError stores ↔
      onOk () { stores with database := seen } := by
  rw [meets_commit]
  simp only [perform, replayed]

end Alone

end Transactional

/-! ## Processes that only read

A process that only reads replies by what is there, unless one of its operations fails. -/

namespace Fallible

variable {interface : Interface} {Error Reply Value : Type}

def answered (process : Fallible interface Error Reply) (faults : List Bool)
    (state : interface.State) : Option Reply :=
  (process.run.execute 0 faults state []).bind fun run => run.1.toOption

/-- The process leaves the state as it is. Its reply is the given one, or an error after an
operation that has failed. -/
structure Reads (process : Fallible interface Error Reply) (state : interface.State)
    (reply : Reply) : Prop where
  everyWay : process.Meets (.everyWay interface)
    (fun given after => given = reply ∧ after = state) (fun _ after => after = state) state
  alone : process.Meets (.alone interface)
    (fun given after => given = reply ∧ after = state) (fun _ _ => False) state

variable {state : interface.State}

theorem reads_pure (reply : Reply) :
    (pure reply : Fallible interface Error Reply).Reads state reply :=
  ⟨⟨rfl, rfl⟩, ⟨rfl, rfl⟩⟩

theorem Reads.bind {process : Fallible interface Error Value} {value : Value}
    {next : Value → Fallible interface Error Reply} {reply : Reply}
    (first : process.Reads state value) (second : (next value).Reads state reply) :
    (process >>= next).Reads state reply where
  everyWay := by
    rw [meets_bind]
    refine first.everyWay.mono ?_ fun _ _ kept => kept
    rintro given after ⟨rfl, rfl⟩
    exact second.everyWay
  alone := by
    rw [meets_bind]
    refine first.alone.mono ?_ fun _ _ impossible => impossible
    rintro given after ⟨rfl, rfl⟩
    exact second.alone

theorem Reads.of_answered {process : Fallible interface Error Reply} {reply given : Reply}
    {faults : List Bool} (reads : process.Reads state reply)
    (answer : process.answered faults state = some given) : given = reply := by
  obtain ⟨⟨outcome, after, events⟩, executed, replied⟩ := Option.bind_eq_some_iff.mp answer
  have ended := Process.execute_everyWay reads.everyWay executed
  cases outcome with
  | error error => cases replied
  | ok other =>
      cases replied
      exact ended.1

theorem Reads.answered {process : Fallible interface Error Reply} {reply : Reply}
    (reads : process.Reads state reply)
    (ready : ∀ state operation, interface.ready state operation = true) :
    process.answered [] state = some reply := by
  obtain ⟨events, executed⟩ := Process.exists_execute ready process.run 0 state []
  have ended := Process.meets_alone.mp reads.alone
  rw [Fallible.answered, executed]
  simp only [Option.bind_some]
  split at ended
  · rename_i given replied
    rw [replied, ended.1]
    rfl
  · exact ended.elim

end Fallible

namespace Transactional

variable {dialect : Dialect} {device : Device} {Error : Type} {wrap : dialect.Error → Error}
  {stores : Stores dialect device}

theorem reads_query {statement : dialect.Statement} {reply : dialect.Reply statement}
    (selected : dialect.execute stores.database statement = .ok (reply, stores.database)) :
    @Fallible.Reads (Transactional dialect device) Error (no_index (dialect.Reply statement))
      (query wrap statement) stores reply where
  everyWay := by
    refine everyWay_query (fun _ => rfl) fun given database executed => ?_
    cases selected.symm.trans executed
    exact ⟨rfl, rfl⟩
  alone := by
    rw [alone_query, selected]
    exact ⟨rfl, rfl⟩

end Transactional

end Concurrency
