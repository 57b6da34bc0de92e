import Mathlib.Control.Lawful

/-! # Processes over shared operations

A process is the tree of atomic operations it takes on a state that it shares
with other processes. One operation is one indivisible step; what happens
between two of them is up to whoever schedules the processes. -/

namespace Concurrency

/-- What processes share: a state and the operations on it. `ready` says when an
operation may be taken, `perform` what it returns and leaves, and `fault` what
it returns when it fails without touching the state (`none`: it cannot fail). -/
structure Interface where
  State : Type
  Operation : Type
  Result : Operation → Type
  ready : State → Operation → Bool
  perform : State → (operation : Operation) → Result operation × State
  fault : (operation : Operation) → Option (Result operation)

/-- The ways one operation can go from a given state. -/
def Interface.Occurs (interface : Interface) (before : interface.State)
    (operation : interface.Operation) (result : interface.Result operation)
    (after : interface.State) : Prop :=
  (interface.ready before operation = true ∧
      interface.perform before operation = (result, after)) ∨
    (interface.fault operation = some result ∧ after = before)

inductive Process (interface : Interface) (Outcome : Type) where
  | done (outcome : Outcome)
  | call (operation : interface.Operation)
      (next : interface.Result operation → Process interface Outcome)

namespace Process

variable {interface : Interface} {Outcome Value Last : Type}

def bind (process : Process interface Value)
    (next : Value → Process interface Outcome) : Process interface Outcome :=
  match process with
  | .done value => next value
  | .call operation rest => .call operation fun result => (rest result).bind next

instance : Monad (Process interface) where
  pure := .done
  bind := bind

@[simp] theorem bind_done (process : Process interface Value) :
    process.bind .done = process := by
  induction process with
  | done value => rfl
  | call operation rest induction =>
      simp only [bind]
      congr 1
      funext result
      exact induction result

theorem bind_assoc (process : Process interface Value)
    (middle : Value → Process interface Last)
    (next : Last → Process interface Outcome) :
    (process.bind middle).bind next =
      process.bind fun value => (middle value).bind next := by
  induction process with
  | done value => rfl
  | call operation rest induction =>
      simp only [bind]
      congr 1
      funext result
      exact induction result

instance : LawfulMonad (Process interface) :=
  LawfulMonad.mk' _ bind_done (fun _ _ => rfl) bind_assoc

def upcoming : Process interface Outcome → Option interface.Operation
  | .done _ => none
  | .call operation _ => some operation

end Process

/-! ## Judging processes

A logic says of each operation, in each situation, what has to hold so that it
may be taken and a postcondition follows. Judging a whole process is folding
these demands over its tree, so a sequence is judged part by part. -/

structure Logic (interface : Interface) where
  Situation : Type
  admits : Situation → (operation : interface.Operation) →
    (interface.Result operation → Situation → Prop) → Prop
  mono : ∀ {situation operation} {strong weak : interface.Result operation →
      Situation → Prop},
    (∀ result next, strong result next → weak result next) →
    admits situation operation strong → admits situation operation weak

variable {interface : Interface} {Outcome Value : Type}

namespace Process

/-- Every operation of the process is admitted, and it ends as `post` demands. -/
def Meets (logic : Logic interface) (post : Outcome → logic.Situation → Prop) :
    Process interface Outcome → logic.Situation → Prop
  | .done outcome, situation => post outcome situation
  | .call operation next, situation =>
      logic.admits situation operation fun result following =>
        (next result).Meets logic post following

variable {logic : Logic interface}

theorem meets_bind {post : Outcome → logic.Situation → Prop}
    (process : Process interface Value) (next : Value → Process interface Outcome)
    (situation : logic.Situation) :
    (process.bind next).Meets logic post situation ↔
      process.Meets logic
        (fun value following => (next value).Meets logic post following) situation := by
  induction process generalizing situation with
  | done value => rfl
  | call operation rest induction =>
      constructor
      · exact logic.mono fun result following => (induction result following).mp
      · exact logic.mono fun result following => (induction result following).mpr

theorem Meets.mono {strong weak : Outcome → logic.Situation → Prop}
    (implies : ∀ outcome situation, strong outcome situation → weak outcome situation)
    {process : Process interface Outcome} {situation : logic.Situation}
    (meets : process.Meets logic strong situation) :
    process.Meets logic weak situation := by
  induction process generalizing situation with
  | done outcome => exact implies outcome situation meets
  | call operation next induction =>
      exact logic.mono (fun result following => induction result) meets

end Process

/-! ## The operations a process can take -/

/-- The logic of a set of operations: only these may be taken. -/
@[reducible] def Logic.footprint (allowed : interface.Operation → Prop) : Logic interface where
  Situation := Unit
  admits := fun _ operation post => allowed operation ∧ ∀ result, post result ()
  mono := fun implies admitted =>
    ⟨admitted.1, fun result => implies result () (admitted.2 result)⟩

@[simp] theorem Logic.footprint_admits {allowed : interface.Operation → Prop}
    {operation : interface.Operation} {post : interface.Result operation → Unit → Prop} :
    (Logic.footprint allowed).admits () operation post ↔
      allowed operation ∧ ∀ result, post result () := Iff.rfl

/-- In this situation the operation is admitted and changes nothing. -/
def Logic.Ignores (logic : Logic interface) (situation : logic.Situation)
    (operation : interface.Operation) : Prop :=
  ∀ post : interface.Result operation → logic.Situation → Prop,
    (∀ result, post result situation) → logic.admits situation operation post

def Logic.Keeps (logic : Logic interface) (Inv : logic.Situation → Prop)
    (operation : interface.Operation) : Prop :=
  ∀ situation, Inv situation →
    ∀ post : interface.Result operation → logic.Situation → Prop,
      (∀ result following, Inv following → post result following) →
      logic.admits situation operation post

theorem Logic.Ignores.keeps {logic : Logic interface} {situation : logic.Situation}
    {operation : interface.Operation} (ignored : logic.Ignores situation operation) :
    logic.Keeps (fun following => following = situation) operation := by
  rintro following rfl post holds
  exact ignored post fun result => holds result following rfl

namespace Process

/-- Every operation the process can ever take is an allowed one, whatever the
operations before it return. -/
def Uses (allowed : interface.Operation → Prop)
    (process : Process interface Outcome) : Prop :=
  process.Meets (.footprint allowed) (fun _ _ => True) ()

theorem Uses.mono {narrow wide : interface.Operation → Prop}
    {process : Process interface Outcome} (uses : process.Uses narrow)
    (implies : ∀ operation, narrow operation → wide operation) :
    process.Uses wide := by
  induction process with
  | done => trivial
  | call operation next induction =>
      exact ⟨implies operation uses.1,
        fun result => induction result (uses.2 result)⟩

theorem Meets.keeping {logic : Logic interface} {allowed : interface.Operation → Prop}
    {Inv : logic.Situation → Prop} {situation : logic.Situation} {post : Outcome → Prop}
    {goal : Outcome → logic.Situation → Prop}
    (keeps : ∀ operation, allowed operation → logic.Keeps Inv operation)
    {process : Process interface Outcome}
    (meets : process.Meets (.footprint allowed) (fun outcome _ => post outcome) ())
    (holds : Inv situation)
    (implies : ∀ outcome following, post outcome → Inv following → goal outcome following) :
    process.Meets logic goal situation := by
  induction process generalizing situation with
  | done outcome => exact implies outcome situation meets holds
  | call operation next induction =>
      exact keeps operation meets.1 situation holds _ fun result following kept =>
        induction result (meets.2 result) kept

theorem Meets.of_footprint {logic : Logic interface} {allowed : interface.Operation → Prop}
    {situation : logic.Situation} {post : Outcome → Prop}
    {goal : Outcome → logic.Situation → Prop}
    (ignored : ∀ operation, allowed operation → logic.Ignores situation operation)
    {process : Process interface Outcome}
    (meets : process.Meets (.footprint allowed) (fun outcome _ => post outcome) ())
    (holds : ∀ outcome, post outcome → goal outcome situation) :
    process.Meets logic goal situation := by
  refine meets.keeping (fun operation allowed => (ignored operation allowed).keeps) rfl ?_
  rintro outcome following ended rfl
  exact holds outcome ended

theorem Uses.meets {logic : Logic interface} {allowed : interface.Operation → Prop}
    {situation : logic.Situation} {post : Outcome → logic.Situation → Prop}
    (ignored : ∀ operation, allowed operation → logic.Ignores situation operation)
    {process : Process interface Outcome} (uses : process.Uses allowed)
    (holds : ∀ outcome, post outcome situation) :
    process.Meets logic post situation :=
  Meets.of_footprint ignored uses fun outcome _ => holds outcome

end Process

end Concurrency
