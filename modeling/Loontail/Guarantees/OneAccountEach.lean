import Loontail.Guarantees.Reconciliation

/-! # One account for each Minecraft identity

The unique index compares the identifiers as texts, and a text is kept as it came. Two
spellings of one identifier pass the index. -/

namespace Loontail.Accounts

open Concurrency Relational Fallible

/-- Two spellings of one UUID, dashed or not, in any case. -/
def sameUuid (left right : String) : Bool :=
  match Text.undashUuid left, Text.undashUuid right with
  | .ok first, .ok second => first = second
  | _, _ => false

theorem sameUuid_comm (left right : String) : sameUuid left right = sameUuid right left := by
  unfold sameUuid
  cases Text.undashUuid left <;> cases Text.undashUuid right <;> simp [eq_comm]

def Database.OneEach (database : Database) : Prop :=
  ∀ left ∈ database.users.rows, ∀ right ∈ database.users.rows, left.id ≠ right.id →
    ∀ first ∈ left.minecraftUuid, ∀ second ∈ right.minecraftUuid, sameUuid first second = false

instance (database : Database) : Decidable database.OneEach := by
  unfold Database.OneEach
  infer_instance

/-- An identifier that was written is spelled as every other user spells it who has it. -/
def SpellsAlike (event : Event accounts) : Prop :=
  ∀ user ∈ writtenBy event, ∀ other ∈ event.before.database.users.rows, other.id ≠ user.id →
    ∀ written ∈ user.minecraftUuid, ∀ held ∈ other.minecraftUuid,
      sameUuid written held = true → held = written

instance (event : Event accounts) : Decidable (SpellsAlike event) := by
  unfold SpellsAlike
  infer_instance

def SameMinecraft (left right : UniqueIndex → Option String) : Prop :=
  ∃ first ∈ left .minecraftUuid, ∃ second ∈ right .minecraftUuid, sameUuid first second = true

theorem oneEach_iff_apart (database : Database) :
    database.OneEach ↔ database.Apart SameMinecraft := by
  simp only [Database.OneEach, Database.Apart, SameMinecraft, User.entry, not_exists, not_and,
    Bool.not_eq_true]

theorem writesApart_sameMinecraft {event : Event accounts} (alike : SpellsAlike event) :
    WritesApart SameMinecraft event := by
  rintro user writes other member different ⟨written, among, held, holds, same⟩
  have equal : held = written := alike user writes other member different written among
    held holds same
  apply Sql.violated_eq_none.mp (free_of_written writes) other member different .minecraftUuid
  · rw [show user.entry event.before.database.lower .minecraftUuid = some written from among]
    rfl
  · exact (Option.mem_def.mp holds).trans (equal ▸ (Option.mem_def.mp among).symm)

/-- While every identifier is written in the spelling that it already has, no run of the
calls, however they interleave, gives one UUID to two users. -/
theorem one_account_each (state : AppState) (database : Database) (clock : Timestamp)
    (was : database.OneEach) {turns : List (Turn IdentityCall)} {final : IdentityPool}
    (reached : run (Pool.turn (handleIdentity state)) (.initial (.boot database clock)) turns =
      some final)
    (alike : ∀ event ∈ final.history, SpellsAlike event) : final.shared.database.OneEach := by
  rw [oneEach_iff_apart] at was ⊢
  refine Database.Apart.traced ?_ (Pool.traced_of_turns reached) was fun event member =>
    writesApart_sameMinecraft (alike event member)
  rintro left right ⟨first, firstMem, second, secondMem, same⟩
  exact ⟨second, secondMem, first, firstMem, by rwa [sameUuid_comm]⟩

/-! ## Two players -/

def startedApart : List (IdentityCall × List Bool) :=
  [(registering 1 "steve" "00000000000040008000000000000001", []),
    (registering 2 "alex" "00000000000040008000000000000002", []),
    (starting "steve" "11111111-2222-3333-4444-555555555555", []),
    (starting "alex" "11111111-2222-3333-4444-666666666666", [])]

theorem one_account_each_apart :
    ∃ final, run (Pool.turn (handleIdentity plainState)) (.initial (.boot emptyDatabase 0))
        (inSequence startedApart) = some final ∧
      (∀ user ∈ final.shared.database.users.rows, user.minecraftUuid.isSome = true) ∧
        final.shared.database.OneEach := by
  have started : ((run (Pool.turn (handleIdentity plainState)) (.initial (.boot emptyDatabase 0))
      (inSequence startedApart)).map fun final => decide (
        (∀ user ∈ final.shared.database.users.rows, user.minecraftUuid.isSome = true) ∧
        ∀ event ∈ final.history, SpellsAlike event)) = some true := by
    decide +kernel
  rcases Option.map_eq_some_iff.mp started with ⟨final, reached, holds⟩
  rcases of_decide_eq_true holds with ⟨known, alike⟩
  exact ⟨final, reached, known, one_account_each plainState emptyDatabase 0 (by decide) reached
    alike⟩

/-- Both start the game under one identifier, with dashes and without. -/
def startedAlike : List (IdentityCall × List Bool) :=
  [(registering 1 "steve" "00000000000040008000000000000001", []),
    (registering 2 "alex" "00000000000040008000000000000002", []),
    (starting "steve" "11111111-2222-3333-4444-555555555555", []),
    (starting "alex" "11111111222233334444555555555555", [])]

/-- One Minecraft identity can have two accounts. -/
theorem two_accounts_each :
    ¬∀ (state : AppState) (database : Database) (clock : Timestamp)
      (calls : List (IdentityCall × List Bool)) (final : IdentityPool),
      database.users.rows = [] →
      run (Pool.turn (handleIdentity state)) (.initial (.boot database clock))
        (inSequence calls) = some final → final.shared.database.OneEach := by
  intro one
  have both : ((run (Pool.turn (handleIdentity plainState)) (.initial (.boot emptyDatabase 0))
      (inSequence startedAlike)).map fun final =>
        decide (¬final.shared.database.OneEach)) = some true := by
    decide +kernel
  rcases Option.map_eq_some_iff.mp both with ⟨final, reached, holds⟩
  exact of_decide_eq_true holds
    (one plainState emptyDatabase 0 startedAlike final rfl reached)

end Loontail.Accounts
