import Loontail.Guarantees.Reconciliation

/-! # The identity that a bootstrap finds

A bootstrap of the mod names a Minecraft identity in one of many spellings. The user it
answers with depends on the identity alone. -/

namespace Loontail

/-! ## What an identifier denotes -/

namespace Text

def uuidChars (value : String) : Option (List Char) :=
  if isUuidUndashed value then some value.toList
  else if isUuidDashed value then some (value.toList.filter (· ≠ '-'))
  else none

def uuidDigits (value : String) : Option (List Nat) := (uuidChars value).map (List.map hexValue)

example : uuidDigits "11111111-2222-3333-4444-55555555555A" =
    uuidDigits "1111111122223333444455555555555a" := by decide +kernel

theorem toLower_hex {char : Char} (hex : isHexDigit char = true) :
    char.toLower = Nat.digitChar (hexValue char) ∧ hexValue char.toLower = hexValue char := by
  have all : (hexDigits.all fun char => decide (char.toLower = Nat.digitChar (hexValue char) ∧
      hexValue char.toLower = hexValue char)) = true := by decide +kernel
  exact of_decide_eq_true (List.all_eq_true.mp all char (mem_hexDigits hex))

theorem toLower_eq_iff {left right : Char} (first : isHexDigit left = true)
    (second : isHexDigit right = true) :
    left.toLower = right.toLower ↔ hexValue left = hexValue right := by
  obtain ⟨leftDigit, leftValue⟩ := toLower_hex first
  obtain ⟨rightDigit, rightValue⟩ := toLower_hex second
  constructor
  · intro same
    rw [← leftValue, ← rightValue, same]
  · intro same
    rw [leftDigit, rightDigit, same]

theorem map_eq_map_iff_of {α β γ : Type} {f : α → β} {g : α → γ} :
    ∀ {left right : List α},
      (∀ first ∈ left, ∀ second ∈ right, f first = f second ↔ g first = g second) →
      (left.map f = right.map f ↔ left.map g = right.map g)
  | [], right, _ => by simp
  | _ :: _, [], _ => by simp
  | first :: left, second :: right, alike => by
      simp only [List.map_cons, List.cons.injEq]
      rw [alike first (by simp) second (by simp), map_eq_map_iff_of]
      exact fun one among other here => alike one (List.mem_cons_of_mem _ among) other
        (List.mem_cons_of_mem _ here)

theorem uuidChars_hex {value : String} {chars : List Char} (kept : uuidChars value = some chars) :
    ∀ char ∈ chars, isHexDigit char = true := by
  unfold uuidChars at kept
  split at kept
  · rename_i plain
    cases kept
    simp only [isUuidUndashed, Bool.and_eq_true, List.all_eq_true] at plain
    exact plain.2
  · split at kept
    · rename_i dashed
      cases kept
      simp only [isUuidDashed, Bool.and_eq_true, List.all_eq_true] at dashed
      intro char member
      obtain ⟨among, other⟩ := List.mem_filter.mp member
      obtain ⟨index, placed⟩ := List.mem_iff_getElem?.mp among
      have fits := dashed.2 (char, index) (List.mk_mem_zipIdx_iff_getElem?.mpr placed)
      split at fits
      · exact absurd (of_decide_eq_true fits) (of_decide_eq_true other)
      · exact fits
    · cases kept

theorem undashUuid_ok {value profile : String} : undashUuid value = .ok profile ↔
    ∃ chars, uuidChars value = some chars ∧ profile = .ofList (chars.map Char.toLower) := by
  rw [undashUuid, Yggdrasil.undashUuid, Yggdrasil.isUuidUndashed_eq, Yggdrasil.isUuidDashed_eq,
    uuidChars]
  unfold toAsciiLowercase
  split
  · simp [Except.mapError, eq_comm]
  · split <;> simp [Except.mapError, eq_comm]

theorem uuidDigits_of_undashed {value profile : String}
    (made : undashUuid value = .ok profile) : ∃ uuid, uuidDigits value = some uuid := by
  obtain ⟨chars, kept, -⟩ := undashUuid_ok.mp made
  exact ⟨chars.map hexValue, by rw [uuidDigits, kept, Option.map_some]⟩

theorem undashUuid_eq_iff {left right first second : String}
    (leftMade : undashUuid left = .ok first) (rightMade : undashUuid right = .ok second) :
    first = second ↔ uuidDigits left = uuidDigits right := by
  obtain ⟨leftChars, leftKept, rfl⟩ := undashUuid_ok.mp leftMade
  obtain ⟨rightChars, rightKept, rfl⟩ := undashUuid_ok.mp rightMade
  rw [uuidDigits, uuidDigits, leftKept, rightKept, Option.map_some, Option.map_some,
    Option.some.injEq, String.ofList_inj]
  exact map_eq_map_iff_of fun one among other here =>
    toLower_eq_iff (uuidChars_hex leftKept one among) (uuidChars_hex rightKept other here)

end Text

namespace Accounts

open Concurrency Relational Fallible

/-! ## One call -/

/-- Every profile identifier stays with its user. -/
def Database.KeepsProfiles (before after : Database) : Prop :=
  ∀ user ∈ before.users.rows, ∀ profile ∈ user.profileUuid,
    ∃ later ∈ after.users.rows, later.id = user.id ∧ later.profileUuid = some profile

theorem Bootstrapped.keepsProfiles {before after : Database} {minecraft profile : String}
    {user : User} (bootstrapped : Bootstrapped before minecraft profile user after)
    (was : before.Reconciled) : before.KeepsProfiles after := by
  intro row member held holds
  rcases bootstrapped.kept row member with still | ⟨own, identified | profiled⟩
  · exact ⟨row, still, rfl, holds⟩
  · -- the row had the profile of its Minecraft identifier already
    obtain ⟨made, among, undashed⟩ := was row member minecraft identified
    have same : held = made := Option.some.inj (Eq.symm holds |>.trans among)
    have kept : profile = made := Except.ok.inj (bootstrapped.made.symm.trans undashed)
    refine ⟨user, bootstrapped.member, own.symm, ?_⟩
    rw [same, ← kept]
    exact bootstrapped.profiled
  · have same : held = profile := Option.some.inj (Eq.symm holds |>.trans profiled)
    exact ⟨user, bootstrapped.member, own.symm, same ▸ bootstrapped.profiled⟩

def Database.Identifies (database : Database) (ident : Identity.BootstrapIdentity) (id : Uuid) :
    Prop :=
  ∃ profile, Text.undashUuid (Text.trim ident.minecraftUuid) = .ok profile ∧
    ∃ user ∈ database.users.rows, user.id = id ∧ user.profileUuid = some profile

theorem Database.Identifies.later {before after : Database} {ident : Identity.BootstrapIdentity}
    {id : Uuid} (keeps : before.KeepsProfiles after) (identifies : before.Identifies ident id) :
    after.Identifies ident id := by
  obtain ⟨profile, made, user, member, rfl, holds⟩ := identifies
  obtain ⟨later, present, same, still⟩ := keeps user member profile holds
  exact ⟨profile, made, later, present, same, still⟩

/-- A call leaves the table reconciled and every profile with its user, and answers with
a user who has the profile of the identity. -/
theorem findOrCreate_stable {state : AppState} {index : Nat} {ident : Identity.BootstrapIdentity}
    {draws : Draws} {faults : List Bool} {service after : Service}
    {history later : List (Event accounts)} {outcome : Except AppError Uuid}
    (was : service.database.Reconciled)
    (executed : (handleIdentity state (.findOrCreate ident draws)).execute index faults service
      history = some (outcome, after, later)) :
    after.database.Reconciled ∧ service.database.KeepsProfiles after.database ∧
      ∀ id, outcome = .ok id → after.database.Identifies ident id := by
  have same : service.database.KeepsProfiles service.database :=
    fun user member profile holds => ⟨user, member, rfl, holds⟩
  have meets : (handleIdentity state (.findOrCreate ident draws)).Meets
      (.provided accounts index fun _ => True) (fun outcome after =>
        after.database.Reconciled ∧ service.database.KeepsProfiles after.database ∧
          ∀ id, outcome = .ok id → after.database.Identifies ident id) service := by
    refine meets_outcome.mpr ((meets_bind _ _).mpr (findOrCreate_provided.mono ?_ ?_))
    · rintro user after ⟨profile, bootstrapped⟩
      refine ⟨bootstrapped.reconciled was, bootstrapped.keepsProfiles was, ?_⟩
      rintro id answer
      cases answer
      exact ⟨profile, bootstrapped.made, user, bootstrapped.member, rfl, bootstrapped.profiled⟩
    · intro error after unchanged
      rw [unchanged]
      exact ⟨was, same, fun id answer => by cases answer⟩
  exact Process.execute_provided meets executed fun _ _ => trivial

/-! ## Every sequence of calls -/

def bootstraps (calls : List (Identity.BootstrapIdentity × Draws × List Bool)) :
    List (Turn IdentityCall) :=
  inSequence (calls.map fun (ident, draws, faults) => (.findOrCreate ident draws, faults))

def AnsweredWith (pool : IdentityPool) (index : Nat) (ident : Identity.BootstrapIdentity)
    (id : Uuid) : Prop :=
  ∃ draws, pool.entries[index]? = some (IdentityCall.findOrCreate ident draws,
    Process.done (Except.ok id))

structure Stable (pool : IdentityPool) : Prop where
  reconciled : pool.shared.database.Reconciled
  answers : ∀ index ident id, AnsweredWith pool index ident id →
    pool.shared.database.Identifies ident id

theorem Stable.after_bootstraps {state : AppState} {pool final : IdentityPool}
    {calls : List (Identity.BootstrapIdentity × Draws × List Bool)} (stable : Stable pool)
    (reached : run (Pool.turn (handleIdentity state)) pool (bootstraps calls) = some final) :
    Stable final := by
  induction calls generalizing pool with
  | nil =>
      cases reached
      exact stable
  | cons call rest induction =>
      obtain ⟨ident, draws, faults⟩ := call
      obtain ⟨next, turned, continued⟩ := Option.bind_eq_some_iff.mp reached
      obtain ⟨outcome, executed, entries⟩ := Pool.turn_atomically turned
      obtain ⟨reconciled, keeps, answers⟩ := findOrCreate_stable stable.reconciled executed
      refine induction ⟨reconciled, ?_⟩ continued
      rintro index other id ⟨otherDraws, answered⟩
      rw [entries, List.getElem?_append] at answered
      split at answered
      · exact (stable.answers index other id ⟨otherDraws, answered⟩).later keeps
      · have here := List.mem_singleton.mp (List.mem_of_getElem? answered)
        cases here
        exact answers id rfl

/-- In every sequence of calls that starts from a reconciled table, the answers to two calls
are one user exactly if the calls name one UUID, and the table is reconciled after it. -/
theorem identities_stable (state : AppState) {database : Database} (clock : Timestamp)
    (indexed : database.Apart SameEntry) (was : database.Reconciled)
    {calls : List (Identity.BootstrapIdentity × Draws × List Bool)} {final : IdentityPool}
    (reached : run (Pool.turn (handleIdentity state)) (.initial (.boot database clock))
      (bootstraps calls) = some final) :
    final.shared.database.Reconciled ∧
      ∀ first left firstId second right secondId, AnsweredWith final first left firstId →
        AnsweredWith final second right secondId → ∃ leftUuid rightUuid,
          Text.uuidDigits (Text.trim left.minecraftUuid) = some leftUuid ∧
          Text.uuidDigits (Text.trim right.minecraftUuid) = some rightUuid ∧
          (firstId = secondId ↔ leftUuid = rightUuid) := by
  have stable : Stable final := by
    refine Stable.after_bootstraps ⟨was, ?_⟩ reached
    rintro index ident id ⟨draws, answered⟩
    cases answered
  have apart : final.shared.database.Apart SameEntry := by
    refine Database.Apart.traced ?_ (Pool.traced_of_turns reached) indexed fun event _ =>
      writesApart_sameEntry event
    rintro left right ⟨index, present, same⟩
    exact ⟨index, same ▸ present, same.symm⟩
  refine ⟨stable.reconciled, ?_⟩
  intro first left firstId second right secondId firstAnswer secondAnswer
  obtain ⟨profile, made, user, member, rfl, held⟩ := stable.answers first left firstId firstAnswer
  obtain ⟨other, otherMade, twin, present, rfl, otherHeld⟩ :=
    stable.answers second right secondId secondAnswer
  obtain ⟨leftUuid, leftDenotes⟩ := Text.uuidDigits_of_undashed made
  obtain ⟨rightUuid, rightDenotes⟩ := Text.uuidDigits_of_undashed otherMade
  refine ⟨leftUuid, rightUuid, leftDenotes, rightDenotes, ?_⟩
  have denoted := Text.undashUuid_eq_iff made otherMade
  rw [leftDenotes, rightDenotes, Option.some.injEq] at denoted
  rw [← denoted]
  constructor
  · intro same
    rw [Table.eq_of_key_eq member present same, otherHeld] at held
    exact (Option.some.inj held).symm
  · intro same
    by_contra different
    refine apart user member twin present different ⟨.profileUuid, ?_, ?_⟩
    · rw [User.entry, held]
      rfl
    · rw [User.entry, User.entry, held, otherHeld, same]

/-- The mod starts twice, and spells the identity without dashes the second time. -/
def spelledTwice : List (Identity.BootstrapIdentity × Draws × List Bool) :=
  [(⟨"aaaaaaaa-2222-3333-4444-555555555555", "Steve"⟩, { drawn "first" with userId := 1 }, []),
    (⟨"AAAAAAAA222233334444555555555555", "Steve"⟩, { drawn "second" with userId := 2 }, [])]

def answer : IdentityCall × Process accounts (Except AppError Uuid) → Option Uuid
  | (_, .done (.ok id)) => some id
  | _ => none

theorem identities_stable_twice :
    ∃ final, run (Pool.turn (handleIdentity plainState)) (.initial (.boot emptyDatabase 0))
        (bootstraps spelledTwice) = some final ∧
      (final.entries.map answer).all Option.isSome = true ∧
      final.shared.database.Reconciled ∧
      ∀ firstId secondId,
        AnsweredWith final 0 ⟨"aaaaaaaa-2222-3333-4444-555555555555", "Steve"⟩ firstId →
        AnsweredWith final 1 ⟨"AAAAAAAA222233334444555555555555", "Steve"⟩ secondId →
        firstId = secondId := by
  have started : ((run (Pool.turn (handleIdentity plainState)) (.initial (.boot emptyDatabase 0))
      (bootstraps spelledTwice)).map fun final =>
        (final.entries.map answer).all Option.isSome) = some true := by
    decide +kernel
  obtain ⟨final, reached, answered⟩ := Option.map_eq_some_iff.mp started
  obtain ⟨reconciled, agree⟩ := identities_stable plainState 0
    (fun left member => by cases member) (fun user member => by cases member) reached
  refine ⟨final, reached, answered, reconciled, ?_⟩
  intro firstId secondId first second
  obtain ⟨leftUuid, rightUuid, left, right, same⟩ := agree 0 _ firstId 1 _ secondId first second
  have alike : Text.uuidDigits (Text.trim "aaaaaaaa-2222-3333-4444-555555555555") =
      Text.uuidDigits (Text.trim "AAAAAAAA222233334444555555555555") := by decide +kernel
  rw [left, right] at alike
  exact same.mpr (Option.some.inj alike)

end Accounts

end Loontail
