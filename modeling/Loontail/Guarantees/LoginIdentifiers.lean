import Loontail.Guarantees.Reconciliation

/-! # Login identifiers

A login looks a user up by name or by email under one text. Each column is unique by
itself; that the name of one is the email of another no index forbids. -/

namespace Loontail.Accounts

open Concurrency Relational

def User.answersTo (state : AppState) (lower : String → String) (identifier : String)
    (user : User) : Bool :=
  let normalized := state.normalizeUsername (Text.trim identifier)
  user.normalizedUsername = normalized || user.email.map lower = some normalized

def Database.Unambiguous (state : AppState) (database : Database) : Prop :=
  ∀ identifier, ∀ left ∈ database.users.rows, ∀ right ∈ database.users.rows,
    left.answersTo state database.lower identifier = true →
      right.answersTo state database.lower identifier = true → left = right

/-- What was written has neither the email of another user for its name nor the name of
another user for its email. -/
def NamesApart (event : Event accounts) : Prop :=
  ∀ user ∈ writtenBy event, ∀ other ∈ event.before.database.users.rows, other.id ≠ user.id →
    other.email.map event.before.database.lower ≠ some user.normalizedUsername ∧
      user.email.map event.before.database.lower ≠ some other.normalizedUsername

instance (event : Event accounts) : Decidable (NamesApart event) := by
  unfold NamesApart
  infer_instance

def NameIsEmail (left right : UniqueIndex → Option String) : Prop :=
  right .email = left .normalizedUsername ∨ left .email = right .normalizedUsername

theorem writesApart_nameIsEmail {event : Event accounts} (apart : NamesApart event) :
    WritesApart NameIsEmail event := by
  rintro user written other member different (name | email)
  · exact (apart user written other member different).1 name
  · exact (apart user written other member different).2 email

/-- Where neither column repeats and no name is another's email, one user answers. -/
theorem unambiguous_of_apart {state : AppState} {database : Database}
    (entries : database.Apart SameEntry) (names : database.Apart NameIsEmail) :
    database.Unambiguous state := by
  intro identifier left leftMem right rightMem leftAnswers rightAnswers
  by_contra different
  have others : left.id ≠ right.id := fun same =>
    different (Table.eq_of_key_eq leftMem rightMem same)
  simp only [User.answersTo, Bool.or_eq_true, decide_eq_true_eq] at leftAnswers rightAnswers
  rcases leftAnswers with leftName | leftEmail
  · rcases rightAnswers with rightName | rightEmail
    · exact entries left leftMem right rightMem others
        ⟨.normalizedUsername, rfl, by simp [User.entry, leftName, rightName]⟩
    · exact names left leftMem right rightMem others
        (.inl (by simp [User.entry, leftName, rightEmail]))
  · rcases rightAnswers with rightName | rightEmail
    · exact names left leftMem right rightMem others
        (.inr (by simp [User.entry, leftEmail, rightName]))
    · exact entries left leftMem right rightMem others
        ⟨.email, by simp [User.entry, leftEmail], by simp [User.entry, leftEmail, rightEmail]⟩

theorem apart_of_fresh {database : Database} (fresh : database.users.rows = [])
    (Clash : (UniqueIndex → Option String) → (UniqueIndex → Option String) → Prop) :
    database.Apart Clash := by
  intro left member
  rw [fresh] at member
  cases member

/-- While no user is given the email of another for a name, or the name for an email,
no run of the calls, however they interleave, makes an identifier ambiguous. -/
theorem identifiers_unambiguous (state : AppState) (database : Database) (clock : Timestamp)
    (fresh : database.users.rows = []) {turns : List (Turn IdentityCall)}
    {final : IdentityPool}
    (reached : run (Pool.turn (handleIdentity state)) (.initial (.boot database clock)) turns =
      some final)
    (apart : ∀ event ∈ final.history, NamesApart event) :
    final.shared.database.Unambiguous state := by
  have traced := Pool.traced_of_turns reached
  apply unambiguous_of_apart
  · refine Database.Apart.traced ?_ traced (apart_of_fresh fresh _) fun event _ =>
      writesApart_sameEntry event
    rintro left right ⟨index, present, same⟩
    exact ⟨index, by rwa [same], same.symm⟩
  · refine Database.Apart.traced ?_ traced (apart_of_fresh fresh _) fun event member =>
      writesApart_nameIsEmail (apart event member)
    rintro left right (name | email)
    · exact .inr name
    · exact .inl email

/-! ## A name that looks like an email -/

def registeredApart : List (IdentityCall × List Bool) :=
  [(registering 1 "steve" "00000000000040008000000000000001", []),
    (registering 2 "alex" "00000000000040008000000000000002", [])]

theorem identifiers_unambiguous_apart :
    ∃ final, run (Pool.turn (handleIdentity plainState)) (.initial (.boot emptyDatabase 0))
        (inSequence registeredApart) = some final ∧ final.shared.database.users.rows.length = 2 ∧
      final.shared.database.Unambiguous plainState := by
  have registered : ((run (Pool.turn (handleIdentity plainState))
      (.initial (.boot emptyDatabase 0)) (inSequence registeredApart)).map fun final => decide (
        final.shared.database.users.rows.length = 2 ∧
        ∀ event ∈ final.history, NamesApart event)) = some true := by
    decide +kernel
  rcases Option.map_eq_some_iff.mp registered with ⟨final, reached, holds⟩
  rcases of_decide_eq_true holds with ⟨both, apart⟩
  exact ⟨final, reached, both, identifiers_unambiguous plainState emptyDatabase 0 rfl reached
    apart⟩

def registeredAsEmail : List (IdentityCall × List Bool) :=
  [(registering 1 "steve" "00000000000040008000000000000001", []),
    (.register ⟨"steve@example.com", "alex@example.com", "secret"⟩
      { drawn "alex" with userId := 2 }, [])]

/-- One identifier can match two users. -/
theorem identifiers_ambiguous :
    ¬∀ (state : AppState) (database : Database) (clock : Timestamp)
      (calls : List (IdentityCall × List Bool)) (final : IdentityPool),
      database.users.rows = [] →
      run (Pool.turn (handleIdentity state)) (.initial (.boot database clock))
        (inSequence calls) = some final → final.shared.database.Unambiguous state := by
  intro unambiguous
  have both : ((run (Pool.turn (handleIdentity plainState)) (.initial (.boot emptyDatabase 0))
      (inSequence registeredAsEmail)).map fun final => decide (
        ∃ left ∈ final.shared.database.users.rows, ∃ right ∈ final.shared.database.users.rows,
          left.answersTo plainState final.shared.database.lower "steve@example.com" = true ∧
            right.answersTo plainState final.shared.database.lower "steve@example.com" = true ∧
              left ≠ right)) = some true := by
    decide +kernel
  rcases Option.map_eq_some_iff.mp both with ⟨final, reached, holds⟩
  rcases of_decide_eq_true holds with
    ⟨left, leftMem, right, rightMem, leftAnswers, rightAnswers, different⟩
  exact different (unambiguous plainState emptyDatabase 0 registeredAsEmail final rfl reached
    "steve@example.com" left leftMem right rightMem leftAnswers rightAnswers)

end Loontail.Accounts
