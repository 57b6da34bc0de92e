import Mathlib.Logic.Function.Basic

/-! # Publication

An agent writes its value into a cell of its own, and releases the label of the cell afterwards.
Whoever comes by a released label finds in its cell what was written for it, or nothing. -/

namespace Concurrency

/-- An agent that works on a value may know what it has put into the cell so far. -/
inductive Stage (Label Value : Type) where
  | idle
  | working (label : Label) (value : Value) (held : Option Value)

namespace Stage

variable {Label Value : Type}

def pending : Stage Label Value → Option (Label × Value)
  | idle => none
  | working label value _ => some (label, value)

end Stage

/-- `released` are the labels that have ever been given away, and `backed` are the values that some
agent stands for. -/
structure Publication (Label Cell Value : Type) where
  content : Cell → Option Value
  released : Label → Prop
  backed : Label → Value → Prop
  stage : Nat → Stage Label Value

namespace Publication

variable {Label Cell Value : Type}

structure Untouched (place : Label → Cell) (publication : Publication Label Cell Value)
    (agent : Nat) (cell : Cell) : Prop where
  unreleased : ∀ label, publication.released label → place label ≠ cell
  unclaimed : ∀ other label value, other ≠ agent →
    (publication.stage other).pending = some (label, value) → place label ≠ cell

/-- An agent works on an untouched cell until it releases its label. Other cells gain no value. -/
structure Step (place : Label → Cell) (agent : Nat) (before after : Publication Label Cell Value) :
    Prop where
  others : ∀ other, other ≠ agent → after.stage other = before.stage other
  backed : ∀ label value, before.backed label value → after.backed label value
  content : ∀ cell value, after.content cell = some value →
    before.content cell = some value ∨
      ∃ label value, (before.stage agent).pending = some (label, value) ∧
        (after.stage agent).pending = some (label, value) ∧ place label = cell
  released : ∀ label, after.released label →
    before.released label ∨
      ∃ value, before.stage agent = .working label value (some value) ∧ after.stage agent = .idle
  claims : ∀ label value, (after.stage agent).pending = some (label, value) →
    (before.stage agent).pending = some (label, value) ∨
      after.backed label value ∧ before.Untouched place agent (place label)
  writes : ∀ label value held, after.stage agent = .working label value (some held) →
    ∀ other, after.content (place label) = some other →
      other = held ∨ before.stage agent = .working label value (some held) ∧
        before.content (place label) = some other

structure Sound (place : Label → Cell) (publication : Publication Label Cell Value) : Prop where
  genuine : ∀ label value, publication.released label →
    publication.content (place label) = some value → publication.backed label value
  drafted : ∀ agent label value, (publication.stage agent).pending = some (label, value) →
    publication.backed label value ∧ publication.Untouched place agent (place label)
  written : ∀ agent label value held, publication.stage agent = .working label value (some held) →
    ∀ other, publication.content (place label) = some other → other = held

section Steps

variable {place : Label → Cell} {before after : Publication Label Cell Value} {agent : Nat}

/-- A cell gains a value only at the hands of the agent that claims it. -/
theorem Step.content_of_untouched (step : Step place agent before after) {label : Label}
    (apart : ∀ claimed value, (before.stage agent).pending = some (claimed, value) →
      place claimed ≠ place label) {value : Value}
    (found : after.content (place label) = some value) :
    before.content (place label) = some value := by
  rcases step.content (place label) value found with earlier | ⟨claimed, wanted, claims, -, here⟩
  · exact earlier
  · exact absurd here (apart claimed wanted claims)

theorem Sound.step_genuine (sound : before.Sound place) (step : Step place agent before after)
    {label : Label} {value : Value} (told : after.released label)
    (found : after.content (place label) = some value) : after.backed label value := by
  apply step.backed
  rcases step.released label told with earlier | ⟨wanted, written, idle⟩
  · have kept : before.content (place label) = some value := by
      apply step.content_of_untouched _ found
      intro claimed wanted claims here
      exact (sound.drafted agent claimed wanted claims).2.unreleased label earlier here.symm
    exact sound.genuine label value earlier kept
  · have kept : before.content (place label) = some value := by
      rcases step.content (place label) value found with kept | ⟨_, _, -, claims, -⟩
      · exact kept
      · rw [idle] at claims
        cases claims
    obtain rfl := sound.written agent label wanted wanted written value kept
    exact (sound.drafted agent label value (by rw [written]; rfl)).1

theorem Sound.step_own (sound : before.Sound place) (step : Step place agent before after)
    {label : Label} {value : Value} (pending : (after.stage agent).pending = some (label, value)) :
    after.backed label value ∧ after.Untouched place agent (place label) := by
  have drafted : after.backed label value ∧ before.Untouched place agent (place label) := by
    rcases step.claims label value pending with claimed | fresh
    · obtain ⟨backed, untouched⟩ := sound.drafted agent label value claimed
      exact ⟨step.backed label value backed, untouched⟩
    · exact fresh
  refine ⟨drafted.1, ?_, ?_⟩
  · intro other told
    rcases step.released other told with earlier | ⟨_, -, idle⟩
    · exact drafted.2.unreleased other earlier
    · rw [idle] at pending
      cases pending
  · intro other claimed wanted apart claims
    rw [step.others other apart] at claims
    exact drafted.2.unclaimed other claimed wanted apart claims

theorem Sound.step_other (sound : before.Sound place) (step : Step place agent before after)
    {other : Nat} (apart : other ≠ agent) {label : Label} {value : Value}
    (pending : (after.stage other).pending = some (label, value)) :
    after.backed label value ∧ after.Untouched place other (place label) := by
  rw [step.others other apart] at pending
  obtain ⟨backed, untouched⟩ := sound.drafted other label value pending
  refine ⟨step.backed label value backed, ?_, ?_⟩
  · intro told known
    rcases step.released told known with earlier | ⟨wanted, written, -⟩
    · exact untouched.unreleased told earlier
    · exact untouched.unclaimed agent told wanted (Ne.symm apart) (by rw [written]; rfl)
  · intro third claimed wanted distinct claims
    by_cases own : third = agent
    · subst own
      rcases step.claims claimed wanted claims with earlier | ⟨-, fresh⟩
      · exact untouched.unclaimed third claimed wanted distinct earlier
      · exact Ne.symm (fresh.unclaimed other label value apart pending)
    · rw [step.others third own] at claims
      exact untouched.unclaimed third claimed wanted distinct claims

theorem Sound.step (sound : before.Sound place) (step : Step place agent before after) :
    after.Sound place where
  genuine _ _ told found := sound.step_genuine step told found
  drafted other _ _ pending := by
    by_cases own : other = agent
    · subst own
      exact sound.step_own step pending
    · exact sound.step_other step own pending
  written other label value held written wanted found := by
    by_cases own : other = agent
    · subst own
      rcases step.writes label value held written wanted found with same | ⟨earlier, kept⟩
      · exact same
      · exact sound.written other label value held earlier wanted kept
    · rw [step.others other own] at written
      have pending : (before.stage other).pending = some (label, value) := by
        rw [written]
        rfl
      apply sound.written other label value held written wanted
      apply step.content_of_untouched _ found
      intro claimed drafted claims
      exact (sound.drafted other label value pending).2.unclaimed agent claimed drafted
        (Ne.symm own) claims

end Steps

end Publication

end Concurrency
