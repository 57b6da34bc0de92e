import Loontail.Concurrency.Process

/-! # Processes that may stop early

A fallible process ends with a reply or with an error; what follows an error is
skipped. The rules judge a sequence part by part, for any interface. -/

namespace Concurrency

abbrev Fallible (interface : Interface) (Error Reply : Type) :=
  ExceptT Error (Process interface) Reply

namespace Fallible

variable {interface : Interface} {Error Reply Value : Type}

def operate (operation : interface.Operation) :
    Fallible interface Error (interface.Result operation) :=
  ExceptT.mk (.call operation fun result => .done (.ok result) :
    Process interface (Except Error (interface.Result operation)))

/-- `if condition { return Err(error); }`. -/
def refuse (condition : Bool) (error : Error) : Fallible interface Error Unit :=
  if condition then throw error else pure ()

/-- `.ok_or(error)?`. -/
def okOr (value : Option Value) (error : Error) : Fallible interface Error Value :=
  match value with
  | some value => pure value
  | none => throw error

/-- `?` on a result that is already there. -/
def lift (result : Except Error Value) : Fallible interface Error Value :=
  match result with
  | .ok value => pure value
  | .error error => throw error

def whenever (condition : Bool) (process : Fallible interface Error Unit) :
    Fallible interface Error Unit :=
  if condition then process else pure ()

/-! ## Judging fallible processes -/

/-- The process ends in `onOk` or in `onError`. -/
def Meets (process : Fallible interface Error Reply) (logic : Logic interface)
    (onOk : Reply → logic.Situation → Prop)
    (onError : Error → logic.Situation → Prop) (situation : logic.Situation) : Prop :=
  Process.Meets logic
    (fun outcome following => match outcome with
      | .ok reply => onOk reply following
      | .error error => onError error following)
    process.run situation

variable {logic : Logic interface} {onOk : Reply → logic.Situation → Prop}
  {onError : Error → logic.Situation → Prop} {situation : logic.Situation}

theorem Meets.mono {strong : Reply → logic.Situation → Prop}
    {strongError : Error → logic.Situation → Prop} {process : Fallible interface Error Reply}
    (meets : process.Meets logic strong strongError situation)
    (ok : ∀ reply following, strong reply following → onOk reply following)
    (error : ∀ error following, strongError error following → onError error following) :
    process.Meets logic onOk onError situation :=
  Process.Meets.mono (fun outcome following holds => match outcome with
    | .ok reply => ok reply following holds
    | .error failure => error failure following holds) meets

theorem Meets.keeping {allowed : interface.Operation → Prop} {Inv : logic.Situation → Prop}
    {ok : Reply → Prop} {failed : Error → Prop} {process : Fallible interface Error Reply}
    (meets : process.Meets (.footprint allowed) (fun reply _ => ok reply)
      (fun error _ => failed error) ())
    (keeps : ∀ operation, allowed operation → logic.Keeps Inv operation) (holds : Inv situation)
    (replied : ∀ reply following, ok reply → Inv following → onOk reply following)
    (refused : ∀ error following, failed error → Inv following → onError error following) :
    process.Meets logic onOk onError situation := by
  refine @Process.Meets.keeping interface (Except Error Reply) logic allowed Inv situation
    (fun outcome => match outcome with
      | .ok reply => ok reply
      | .error error => failed error) _ keeps process.run ?_ holds ?_
  · refine Process.Meets.mono (fun outcome _ ended => ?_) meets
    cases outcome <;> exact ended
  · intro outcome following ended kept
    cases outcome with
    | ok reply => exact replied reply following ended kept
    | error error => exact refused error following ended kept

theorem Meets.of_footprint {allowed : interface.Operation → Prop} {ok : Reply → Prop}
    {failed : Error → Prop} {process : Fallible interface Error Reply}
    (meets : process.Meets (.footprint allowed) (fun reply _ => ok reply)
      (fun error _ => failed error) ())
    (ignored : ∀ operation, allowed operation → logic.Ignores situation operation)
    (replied : ∀ reply, ok reply → onOk reply situation)
    (refused : ∀ error, failed error → onError error situation) :
    process.Meets logic onOk onError situation := by
  refine meets.keeping (fun operation allowed => (ignored operation allowed).keeps) rfl ?_ ?_
  · rintro reply following ended rfl
    exact replied reply ended
  · rintro error following ended rfl
    exact refused error ended

@[simp] theorem meets_pure (reply : Reply) :
    (pure reply : Fallible interface Error Reply).Meets logic onOk onError situation ↔
      onOk reply situation := Iff.rfl

@[simp] theorem meets_throw (error : Error) :
    (throw error : Fallible interface Error Reply).Meets logic onOk onError situation ↔
      onError error situation := Iff.rfl

@[simp] theorem meets_bind (process : Fallible interface Error Value)
    (next : Value → Fallible interface Error Reply) :
    (process >>= next).Meets logic onOk onError situation ↔
      process.Meets logic
        (fun value following => (next value).Meets logic onOk onError following)
        onError situation := by
  refine (Process.meets_bind process.run _ situation).trans (iff_of_eq ?_)
  unfold Meets
  congr 1
  funext outcome following
  cases outcome <;> rfl

@[simp] theorem meets_map (apply : Value → Reply) (process : Fallible interface Error Value) :
    (apply <$> process).Meets logic onOk onError situation ↔
      process.Meets logic (fun value following => onOk (apply value) following)
        onError situation := by
  rw [map_eq_pure_bind, meets_bind]
  simp only [meets_pure]

@[simp] theorem meets_ite (condition : Prop) [Decidable condition]
    (yes no : Fallible interface Error Reply) :
    (if condition then yes else no).Meets logic onOk onError situation ↔
      (condition → yes.Meets logic onOk onError situation) ∧
        (¬condition → no.Meets logic onOk onError situation) := by
  split <;> simp_all

@[simp] theorem meets_operate (operation : interface.Operation)
    {onOk : interface.Result operation → logic.Situation → Prop} :
    @Meets interface Error (no_index (interface.Result operation)) (operate operation) logic
        onOk onError situation ↔
      logic.admits situation operation onOk := Iff.rfl

@[simp] theorem meets_refuse (condition : Bool) (error : Error)
    {onOk : Unit → logic.Situation → Prop} :
    (refuse condition error).Meets logic onOk onError situation ↔
      (condition = true → onError error situation) ∧
        (condition = false → onOk () situation) := by
  cases condition <;> simp [refuse]

@[simp] theorem meets_okOr (value : Option Value) (error : Error)
    {onOk : Value → logic.Situation → Prop} :
    (okOr value error).Meets logic onOk onError situation ↔
      (value = none → onError error situation) ∧
        ∀ present, value = some present → onOk present situation := by
  cases value <;> simp [okOr]

@[simp] theorem meets_lift (result : Except Error Value)
    {onOk : Value → logic.Situation → Prop} :
    (lift result).Meets logic onOk onError situation ↔
      (∀ error, result = .error error → onError error situation) ∧
        ∀ value, result = .ok value → onOk value situation := by
  cases result <;> simp [lift]

@[simp] theorem meets_whenever (condition : Bool) (process : Fallible interface Error Unit)
    {onOk : Unit → logic.Situation → Prop} :
    (whenever condition process).Meets logic onOk onError situation ↔
      (condition = true → process.Meets logic onOk onError situation) ∧
        (condition = false → onOk () situation) := by
  cases condition <;> simp [whenever]

theorem meets_outcome {post : Except Error Reply → logic.Situation → Prop}
    {process : Fallible interface Error Reply} :
    Process.Meets logic post process.run situation ↔
      process.Meets logic (fun reply => post (.ok reply)) (fun error => post (.error error))
        situation := by
  unfold Meets
  refine iff_of_eq (congrFun (congrFun (congrArg _ ?_) _) _)
  funext outcome following
  cases outcome <;> rfl

theorem meets_run {post : logic.Situation → Prop} {process : Fallible interface Error Reply} :
    Process.Meets logic (fun _ following => post following) process.run situation ↔
      process.Meets logic (fun _ following => post following)
        (fun _ following => post following) situation :=
  meets_outcome

theorem forall_except {holds : Except Error Value → Prop} :
    (∀ result, holds result) ↔
      (∀ value, holds (.ok value)) ∧ ∀ error, holds (.error error) :=
  ⟨fun all => ⟨fun value => all (.ok value), fun error => all (.error error)⟩,
    fun both result => match result with
      | .ok value => both.1 value
      | .error error => both.2 error⟩

end Fallible

end Concurrency
