import Loontail.Concurrency.Fallible
import Loontail.Concurrency.Turn

/-! # Programs built of parts

One part has an interface of its own; the other parts add state and operations to
it, and may use what the first part keeps. A process of the first part runs in the
whole as it runs alone. -/

namespace Concurrency

structure Extension (base : Interface) where
  State : Type
  Operation : Type
  Result : Operation → Type
  ready : base.State × State → Operation → Bool
  perform : base.State × State → (operation : Operation) → Result operation × (base.State × State)
  fault : (operation : Operation) → Option (Result operation)

namespace Extension

variable {base : Interface}

/-- The base's operations leave the added state alone. -/
@[reducible] def whole (extension : Extension base) : Interface where
  State := base.State × extension.State
  Operation := base.Operation ⊕ extension.Operation
  Result
    | .inl operation => base.Result operation
    | .inr operation => extension.Result operation
  ready
    | state, .inl operation => base.ready state.1 operation
    | state, .inr operation => extension.ready state operation
  perform
    | state, .inl operation =>
        let (result, after) := base.perform state.1 operation
        (result, (after, state.2))
    | state, .inr operation => extension.perform state operation
  fault
    | .inl operation => base.fault operation
    | .inr operation => extension.fault operation

variable {extension : Extension base}

theorem occurs_inl {before after : extension.whole.State} {operation : base.Operation}
    {result : base.Result operation} :
    extension.whole.Occurs before (.inl operation) result after ↔
      base.Occurs before.1 operation result after.1 ∧ after.2 = before.2 := by
  obtain ⟨state, added⟩ := before
  obtain ⟨later, kept⟩ := after
  simp only [Interface.Occurs, Prod.mk.injEq]
  constructor
  · rintro (⟨ready, performed, rfl, rfl⟩ | ⟨fault, rfl, rfl⟩)
    · exact ⟨.inl ⟨ready, Prod.ext performed rfl⟩, rfl⟩
    · exact ⟨.inr ⟨fault, rfl⟩, rfl⟩
  · rintro ⟨⟨ready, performed⟩ | ⟨fault, rfl⟩, rfl⟩
    · exact .inl ⟨ready, congrArg Prod.fst performed, congrArg Prod.snd performed, rfl⟩
    · exact .inr ⟨fault, rfl, rfl⟩

end Extension

namespace Process

variable {interface base : Interface} {Outcome Value : Type}

/-- The states that a process can leave when it runs at once, whichever of its
operations fail. -/
inductive Leaves : Process interface Outcome → interface.State → interface.State → Prop where
  | done (outcome : Outcome) (state : interface.State) : (Process.done outcome).Leaves state state
  | call {operation : interface.Operation}
      {next : interface.Result operation → Process interface Outcome}
      {before middle after : interface.State} {result : interface.Result operation}
      (occurs : interface.Occurs before operation result middle)
      (rest : (next result).Leaves middle after) :
      (Process.call operation next).Leaves before after

@[simp] theorem leaves_done {outcome : Outcome} {before after : interface.State} :
    (done outcome : Process interface Outcome).Leaves before after ↔ after = before := by
  constructor
  · rintro ⟨⟩
    rfl
  · rintro rfl
    exact .done outcome after

theorem leaves_call {operation : interface.Operation}
    {next : interface.Result operation → Process interface Outcome}
    {before after : interface.State} :
    (call operation next).Leaves before after ↔
      ∃ result middle, interface.Occurs before operation result middle ∧
        (next result).Leaves middle after := by
  constructor
  · rintro (_ | ⟨occurs, rest⟩)
    exact ⟨_, _, occurs, rest⟩
  · rintro ⟨result, middle, occurs, rest⟩
    exact .call occurs rest

theorem leaves_map (apply : Value → Outcome) (process : Process interface Value)
    {before after : interface.State} :
    (apply <$> process).Leaves before after ↔ process.Leaves before after := by
  rw [map_eq_pure_bind]
  induction process generalizing before with
  | done value => exact leaves_done.trans leaves_done.symm
  | call operation next induction =>
      refine leaves_call.trans (Iff.trans ?_ leaves_call.symm)
      exact exists_congr fun result => exists_congr fun middle =>
        and_congr_right fun _ => induction result

def embed (extension : Extension base) :
    Process base Outcome → Process extension.whole Outcome
  | .done outcome => .done outcome
  | .call operation next => .call (.inl operation) fun result => (next result).embed extension

theorem leaves_embed {extension : Extension base} {process : Process base Outcome}
    {before after : extension.whole.State} :
    (process.embed extension).Leaves before after ↔
      process.Leaves before.1 after.1 ∧ after.2 = before.2 := by
  induction process generalizing before with
  | done outcome =>
      exact leaves_done.trans ((Prod.ext_iff).trans (and_congr_left' leaves_done.symm))
  | call operation next induction =>
      refine leaves_call.trans (Iff.trans ?_ (and_congr_left' leaves_call.symm))
      constructor
      · rintro ⟨result, middle, occurs, rest⟩
        rcases Extension.occurs_inl.mp occurs with ⟨alone, kept⟩
        rcases (induction result).mp rest with ⟨left, keeps⟩
        exact ⟨⟨result, middle.1, alone, left⟩, keeps.trans kept⟩
      · rintro ⟨⟨result, middle, alone, left⟩, kept⟩
        exact ⟨result, (middle, before.2), Extension.occurs_inl.mpr ⟨alone, rfl⟩,
          (induction result).mpr ⟨left, kept⟩⟩

end Process

namespace Fallible

variable {base : Interface} {Error Reply : Type}

def embed (extension : Extension base) (process : Fallible base Error Reply) :
    Fallible extension.whole Error Reply :=
  ExceptT.mk (Process.embed extension process.run)

end Fallible

end Concurrency
