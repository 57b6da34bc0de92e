import Loontail.Accounts.Evolution

/-! # The rows that statements write

A statement writes the row of at most one user. The unique indexes admit the row as
it is written, or it keeps the entries that it had. -/

namespace Loontail.Accounts

open Concurrency Relational

def Statement.subject : Statement → Option Uuid
  | .updateUser id _ => some id
  | .setProfileUuid id _ => some id
  | .bindMinecraft id _ => some id
  | .setPassword id _ => some id
  | .setBlocked id _ => some id
  | .refreshBootstrap id _ => some id
  | _ => none

/-- The row as the statement writes it, unless it is refused. -/
def Statement.writes (database : Database) : Statement → Option User
  | .insertUser user => some user
  | statement => statement.subject.bind fun id => (database.users.find id).map statement.sets

theorem Statement.writes_of_subject {statement : Statement} {id : Uuid} {database : Database}
    (subject : statement.subject = some id) :
    statement.writes database = (database.users.find id).map statement.sets := by
  have revises : statement.writes database =
      statement.subject.bind fun id => (database.users.find id).map statement.sets := by
    unfold writes
    split
    · cases subject
    · rfl
  rw [revises, subject, Option.bind_some]

theorem Sql.violated_eq_none {database : Database} {user : User} :
    violated database user = none ↔ ∀ other ∈ database.users.rows, other.id ≠ user.id →
      ∀ index, (user.entry database.lower index).isSome →
        other.entry database.lower index ≠ user.entry database.lower index := by
  have free : ∀ index, taken database user index = false ↔
      ∀ other ∈ database.users.rows, other.id ≠ user.id →
        (user.entry database.lower index).isSome →
          other.entry database.lower index ≠ user.entry database.lower index := by
    intro index
    simp only [taken, Bool.eq_false_iff, ne_eq, List.any_eq_true, Bool.and_eq_true,
      decide_eq_true_eq, not_exists, not_and]
    exact ⟨fun apart other member different present => apart present other member different,
      fun apart present other member different => apart other member different present⟩
  have all : violated database user = none ↔ ∀ index, taken database user index = false := by
    rw [violated, List.find?_eq_none]
    constructor
    · intro none index
      cases index <;> simpa using none _ (by simp)
    · intro none index _
      simp [none index]
  rw [all]
  constructor
  · intro none other member different index present
    exact (free index).mp (none index) other member different present
  · intro apart index
    exact (free index).mpr fun other member different => apart other member different index

theorem Sql.selectByMinecraftUuid_some {minecraftUuid : String} {database : Database}
    {user : User} (found : selectByMinecraftUuid minecraftUuid database = some user) :
    user ∈ database.users.rows ∧ user.minecraftUuid = some minecraftUuid :=
  ⟨List.mem_of_find?_eq_some found, by simpa using List.find?_some found⟩

theorem Sql.selectByProfileUuid_some {profileUuid : String} {database : Database}
    {user : User} (found : selectByProfileUuid profileUuid database = some user) :
    user ∈ database.users.rows ∧ user.profileUuid = some profileUuid :=
  ⟨List.mem_of_find?_eq_some found, by simpa using List.find?_some found⟩

theorem Database.kept_or_set {database : Database} {id : Uuid} {user row : User}
    {set : User → User} (found : database.users.find id = some user)
    (member : row ∈ database.users.rows.map (Table.revise (fun row => row.id = id) set)) :
    row ∈ database.users.rows ∨ row = set user := by
  obtain ⟨old, present, rfl⟩ := Table.mem_revised.mp member
  by_cases here : old.id = id
  · have same : old = user := Option.some.inj
      ((Table.find_eq_some.mpr ⟨present, here⟩).symm.trans found)
    subst same
    exact .inr (by simp [Table.revise, here])
  · exact .inl (by simpa [Table.revise, here] using present)

structure Database.Writes (statement : Statement) (before after : Database) : Prop where
  lower : after.lower = before.lower
  rows : ∀ user ∈ after.users.rows,
    user ∈ before.users.rows ∨ statement.writes before = some user
  entries : ∀ user ∈ after.users.rows,
    (∃ earlier ∈ before.users.rows, earlier.id = user.id ∧
      earlier.entry before.lower = user.entry before.lower) ∨
    statement.writes before = some user ∧ Sql.violated before user = none

namespace Database.Writes

variable {statement : Statement} {before after : Database}

theorem of_subset (lower : after.lower = before.lower)
    (within : after.users.rows ⊆ before.users.rows) : Writes statement before after where
  lower := lower
  rows := fun _ member => .inl (within member)
  entries := fun user member => .inl ⟨user, within member, rfl, rfl⟩

theorem of_revised {id : Uuid} {user : User} (lower : after.lower = before.lower)
    (subject : statement.subject = some id) (found : before.users.find id = some user)
    (rows : ∀ row ∈ after.users.rows, row ∈ before.users.rows ∨ row = statement.sets user)
    (admitted : (statement.sets user).entry before.lower = user.entry before.lower ∨
      Sql.violated before (statement.sets user) = none) : Writes statement before after := by
  have writes : statement.writes before = some (statement.sets user) := by
    rw [Statement.writes_of_subject subject, found, Option.map_some]
  constructor
  · exact lower
  · intro row member
    rcases rows row member with kept | rfl
    · exact .inl kept
    · exact .inr writes
  · intro row member
    rcases rows row member with kept | rfl
    · exact .inl ⟨row, kept, rfl, rfl⟩
    · rcases admitted with same | free
      · exact .inl ⟨user, (Table.find_eq_some.mp found).1, (Statement.sets_id _ _).symm,
          same.symm⟩
      · exact .inr ⟨writes, free⟩

theorem of_reviseUser {id : Uuid} {set : User → User} {keepsKey : ∀ user, (set user).id = user.id}
    {reply : Except UniqueIndex (Option User)} (subject : statement.subject = some id)
    (agrees : ∀ user, user.id = id → statement.sets user = set user)
    (executed : Sql.reviseUser id set keepsKey before = .ok (reply, after)) :
    Writes statement before after := by
  rcases Sql.reviseUser_ok executed with ⟨rfl, -⟩ | ⟨user, users, found, claimed, free, -, rfl⟩
  · exact .of_subset rfl (List.Subset.refl _)
  · have own := agrees user (Database.id_of_find found)
    refine .of_revised rfl subject found (fun row member => ?_) (.inr (own ▸ free))
    rw [own]
    exact Database.kept_or_set found ((Table.claim_rows claimed).1 ▸ member)

theorem of_marked {id : Uuid} {set : User → User} (subject : statement.subject = some id)
    (lower : after.lower = before.lower)
    (rows : after.users.rows = before.users.rows.map (Table.revise (fun user => user.id = id) set))
    (agrees : ∀ user, user.id = id → statement.sets user = set user)
    (entries : ∀ user, (set user).entry before.lower = user.entry before.lower) :
    Writes statement before after := by
  cases found : before.users.find id with
  | none =>
      refine .of_subset lower fun row member => ?_
      rw [rows, Table.mem_revised] at member
      obtain ⟨old, present, rfl⟩ := member
      have absent := Table.find_eq_none.mp found old present
      simpa [Table.revise, show old.id ≠ id from absent] using present
  | some user =>
      have own := agrees user (Database.id_of_find found)
      refine .of_revised lower subject found (fun row member => ?_) (.inl (own ▸ entries user))
      rw [own]
      exact Database.kept_or_set found (rows ▸ member)

end Database.Writes

theorem Statement.execute_writes {now : Timestamp} {database after : Database}
    {statement : Statement} {reply : statement.Reply}
    (executed : statement.execute now database = .ok (reply, after)) :
    database.Writes statement after := by
  cases statement with
  | insertSession userId tokenHash expiresAt =>
      obtain ⟨_, -, rfl⟩ := Sql.insertSession_ok executed
      exact .of_subset rfl (List.Subset.refl _)
  | insertToken userId accessTokenHash clientToken expiresAt =>
      obtain ⟨_, -, rfl⟩ := Sql.insertToken_ok executed
      exact .of_subset rfl (List.Subset.refl _)
  | insertUser user =>
      rcases Sql.insertUser_ok executed with ⟨_, -, rfl⟩ | ⟨users, inserted, free, -, rfl⟩
      · exact .of_subset rfl (List.Subset.refl _)
      · constructor
        · rfl
        · intro row member
          rcases (Table.mem_insert inserted).mp member with rfl | kept
          · exact .inr rfl
          · exact .inl kept
        · intro row member
          rcases (Table.mem_insert inserted).mp member with rfl | kept
          · exact .inr ⟨rfl, free⟩
          · exact .inl ⟨row, kept, rfl, rfl⟩
  | updateUser id patch => exact .of_reviseUser rfl (fun _ here => if_pos here) executed
  | setProfileUuid id profileUuid =>
      exact .of_reviseUser rfl (fun _ here => if_pos here) executed
  | bindMinecraft id minecraftUuid =>
      exact .of_reviseUser rfl (fun _ here => if_pos here) executed
  | refreshBootstrap id refresh => exact .of_reviseUser rfl (fun _ here => if_pos here) executed
  | setPassword id hash =>
      cases executed
      exact .of_marked rfl rfl rfl (fun _ here => if_pos here) fun _ => rfl
  | setBlocked id blocked =>
      cases executed
      exact .of_marked rfl rfl rfl (fun _ here => if_pos here) fun _ => rfl
  | deleteUser id =>
      cases executed
      exact .of_subset rfl fun row member => (Table.mem_delete.mp member).1
  | _ =>
      cases executed
      exact .of_subset rfl (List.Subset.refl _)

/-! ## What no two rows may be -/

def Database.Apart (database : Database)
    (Clash : (UniqueIndex → Option String) → (UniqueIndex → Option String) → Prop) : Prop :=
  ∀ left ∈ database.users.rows, ∀ right ∈ database.users.rows, left.id ≠ right.id →
    ¬Clash (left.entry database.lower) (right.entry database.lower)

/-- The row that the event wrote; one that failed or that an index refused wrote none. -/
def writtenBy (event : Event accounts) : Option User :=
  match event.operation, event.result with
  | .statement statement, .ok _ =>
      (statement.writes event.before.database).filter fun user =>
        Sql.violated event.before.database user = none
  | _, _ => none

def WritesApart (Clash : (UniqueIndex → Option String) → (UniqueIndex → Option String) → Prop)
    (event : Event accounts) : Prop :=
  ∀ user ∈ writtenBy event, ∀ other ∈ event.before.database.users.rows, other.id ≠ user.id →
    ¬Clash (user.entry event.before.database.lower) (other.entry event.before.database.lower)

theorem free_of_written {event : Event accounts} {user : User} (written : user ∈ writtenBy event) :
    Sql.violated event.before.database user = none := by
  unfold writtenBy at written
  split at written
  · exact of_decide_eq_true (Option.filter_eq_some_iff.mp written).2
  · cases written

theorem Database.Apart.event
    {Clash : (UniqueIndex → Option String) → (UniqueIndex → Option String) → Prop}
    (symmetric : ∀ left right, Clash left right → Clash right left) {event : Event accounts}
    (happened : event.Happened) (written : WritesApart Clash event)
    (apart : event.before.database.Apart Clash) : event.after.database.Apart Clash := by
  rcases event with ⟨process, before, operation, result, after⟩
  have occurs : accounts.Occurs before operation result after := happened
  cases operation with
  | statement statement =>
      rcases occurs_statement occurs with ⟨-, -, rfl⟩ | ⟨reply, database, rfl, executed, rfl⟩
      · exact apart
      · have writes := Statement.execute_writes executed
        have admits : ∀ user, statement.writes before.database = some user →
            Sql.violated before.database user = none →
              user ∈ writtenBy ⟨process, before, .statement statement, .ok reply,
                { before with database }⟩ :=
          fun user among free =>
            Option.filter_eq_some_iff.mpr ⟨among, decide_eq_true free⟩
        intro left leftMem right rightMem different
        change ¬Clash (left.entry database.lower) (right.entry database.lower)
        rw [writes.lower]
        rcases writes.entries left leftMem with ⟨first, firstMem, firstId, firstEntry⟩ |
          ⟨leftWritten, leftFree⟩
        · rcases writes.entries right rightMem with ⟨second, secondMem, secondId, secondEntry⟩ |
            ⟨rightWritten, rightFree⟩
          · rw [← firstEntry, ← secondEntry]
            exact apart first firstMem second secondMem (by rwa [firstId, secondId])
          · rw [← firstEntry]
            exact fun clash => written right (admits right rightWritten rightFree) first firstMem
              (by rwa [firstId]) (symmetric _ _ clash)
        · rcases writes.entries right rightMem with ⟨second, secondMem, secondId, secondEntry⟩ |
            ⟨rightWritten, rightFree⟩
          · rw [← secondEntry]
            exact written left (admits left leftWritten leftFree) second secondMem
              (by rw [secondId]; exact different.symm)
          · cases Option.some.inj (leftWritten.symm.trans rightWritten)
            exact (different rfl).elim
  | _ =>
      obtain ⟨_, _, left⟩ := occurs_database (by simp) occurs
      change after.database.Apart Clash
      rw [left]
      exact apart

/-- What every write keeps apart stays apart in every run. -/
theorem Database.Apart.traced
    {Clash : (UniqueIndex → Option String) → (UniqueIndex → Option String) → Prop}
    (symmetric : ∀ left right, Clash left right → Clash right left) {start final : Service}
    {history : List (Event accounts)} (traced : @Traced accounts start history final)
    (apart : start.database.Apart Clash)
    (written : ∀ event ∈ history, WritesApart Clash event) : final.database.Apart Clash := by
  refine @Traced.invariant accounts _ _ _ (fun _ service => service.database.Apart Clash)
    traced apart ?_
  intro event older suffix happened was
  exact was.event symmetric happened (written event (suffix.subset (by simp)))

/-! ## The unique indexes -/

def SameEntry (left right : UniqueIndex → Option String) : Prop :=
  ∃ index, (left index).isSome ∧ right index = left index

theorem writesApart_sameEntry (event : Event accounts) : WritesApart SameEntry event := by
  rintro user written other member different ⟨index, present, same⟩
  exact Sql.violated_eq_none.mp (free_of_written written) other member different index present same

end Loontail.Accounts
