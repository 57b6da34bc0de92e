import Loontail.Accounts.Evolution
import Loontail.Accounts.Recognition
import Loontail.Guarantees.SingleSuccessor

/-! # A blocked user is recognised nowhere

Sessions, access tokens and passwords are checked against the row of the user.
Two paths do not look at the block again: the answer to a game server about an
announced join, and the guest's ticket. -/

namespace Loontail.Accounts

open Concurrency Relational

/-- The user whom the event blocked or unblocked, and which of the two it did. -/
def blocking (event : Event accounts) : Option (Uuid × Bool) :=
  match event.operation, event.result with
  | .statement (.setBlocked id blocked), .ok (some _) => some (id, blocked)
  | _, _ => none

variable {state : AppState}

/-- Between a block and the next unblocking of a user, whoever is served as the user
was recognised before the block. -/
def BlockTakesEffect (state : AppState)
    (pool : Pool accounts Request (Except AppError Reply)) : Prop :=
  ∀ newer block older user, pool.history = newer ++ block :: older →
    blocking block = some (user, true) →
    (∀ event ∈ newer, blocking event ≠ some (user, false)) →
    ∀ index request, pool.owner index = some request → servedAs pool index = some user →
      ∃ event ∈ older, event.process = index ∧ request.recognised state event = some user

/-- Where the block is not looked at, the user is not blocked: the one whose join is
confirmed, and the guest whose ticket is valid. -/
def Request.UnblockedAt (request : Request) (event : Event accounts) : Prop :=
  match request, event.operation with
  | .hasJoined params, .statement (.selectUser id) =>
      ∀ row ∈ event.before.database.users.find id,
        Yggdrasil.confirms row params.username = true → row.blocked = false
  | _, .statement (.ticketValid ticketId tokenHash (some guest)) =>
      Sql.ticketValid event.before.clock ticketId tokenHash (some guest)
          event.before.database = true →
        ∃ row ∈ event.before.database.users.find guest, row.blocked = false
  | _, _ => True

instance (request : Request) (event : Event accounts) :
    Decidable (request.UnblockedAt event) := by
  unfold Request.UnblockedAt
  split <;> infer_instance

/-! ## The row of a blocked user -/

structure Database.Blocked (database : Database) (user : Uuid) : Prop where
  issued : user ∈ database.users.issued
  blocked : ∀ row, database.users.find user = some row → row.blocked = true

theorem blocked_event {event : Event accounts} {user : Uuid} (happened : event.Happened)
    (keeps : blocking event ≠ some (user, false))
    (was : event.before.database.Blocked user) : event.after.database.Blocked user := by
  rcases event with ⟨process, before, operation, result, after⟩
  have occurs : accounts.Occurs before operation result after := happened
  cases operation with
  | statement statement =>
      rcases occurs_statement occurs with ⟨-, -, rfl⟩ | ⟨reply, database, rfl, executed, rfl⟩
      · exact was
      · have kept := Statement.execute_keeps executed
        refine ⟨kept.issued user was.issued, fun row found => ?_⟩
        obtain ⟨earlier, present, rfl | rfl⟩ := kept.was user row found was.issued
        · exact was.blocked _ present
        · rcases statement.sets_blocked earlier with same | ⟨blocked, rfl, sets⟩
          · rw [same]
            exact was.blocked earlier present
          · cases (Table.find_eq_some.mp present).2
            cases executed
            simpa [blocking, sets, present] using keeps
  | _ =>
      obtain ⟨_, _, left⟩ := occurs_database (by simp) occurs
      change Database.Blocked after.database user
      rw [left]
      exact ⟨was.issued, was.blocked⟩

theorem blocked_since {start final : Service} {history : List (Event accounts)} {user : Uuid}
    (traced : @Traced accounts start history final) (blocked : start.database.Blocked user)
    (keeps : ∀ event ∈ history, blocking event ≠ some (user, false)) :
    final.database.Blocked user := by
  refine @Traced.invariant accounts _ _ _ (fun _ service => service.database.Blocked user)
    traced blocked ?_
  intro event older suffix happened was
  exact blocked_event happened (keeps event (suffix.subset (by simp))) was

theorem Sql.setBlocked_blocked {id : Uuid} {database after : Database} {row : User}
    (executed : setBlocked id true database = (some row, after)) : after.Blocked id := by
  have left : after = (setBlocked id true database).2 := by rw [executed]
  have reply : (setBlocked id true database).1 = some row := by rw [executed]
  obtain ⟨earlier, found, -⟩ := Option.map_eq_some_iff.mp reply
  have named := Database.id_of_find found
  subst left
  have issued : id ∈ database.users.issued := Table.issued_of_find found
  refine ⟨issued, fun later present => ?_⟩
  rw [setBlocked, Table.find_update, found] at present
  cases present
  simp [Table.revise, named]

theorem blocked_of_block {event : Event accounts} {user : Uuid} (happened : event.Happened)
    (blocks : blocking event = some (user, true)) : event.after.database.Blocked user := by
  rcases event with ⟨process, before, operation, result, after⟩
  have occurs : accounts.Occurs before operation result after := happened
  simp only [blocking] at blocks
  split at blocks
  · cases blocks
    obtain ⟨database, executed, rfl⟩ := occurs_ok occurs
    exact Sql.setBlocked_blocked (Except.ok.inj executed)
  · cases blocks

/-! ## Who can be recognised -/

section Recognising

variable {now : Timestamp} {database : Database} {user : User}

theorem Sql.userFromToken_found {tokenHash : String}
    (found : userFromToken now tokenHash database = some user) :
    database.users.find user.id = some user ∧ user.blocked = false := by
  unfold userFromToken at found
  split at found
  · obtain ⟨present, unblocked⟩ := Option.filter_eq_some_iff.mp found
    rw [Database.id_of_find present]
    exact ⟨present, by simpa using unblocked⟩
  · cases found

theorem Sql.selectByIdentifier_found {identifier : String} {choice : Nat}
    (found : selectByIdentifier identifier choice database = some user) :
    database.users.find user.id = some user :=
  Table.find_eq_some.mpr ⟨(List.mem_filter.mp (List.mem_of_getElem? found)).1, rfl⟩

theorem Identity.unblocked_of_accepted {password : String}
    (accepted : passwordAccepted state password user = true) : user.blocked = false := by
  unfold passwordAccepted at accepted
  split at accepted
  · simp only [Bool.and_eq_true, Bool.not_eq_true'] at accepted
    exact accepted.1.2
  · cases accepted

theorem Request.unblocked_of_admits {request : Request}
    (joined : ∀ params, request = .hasJoined params →
      Yggdrasil.confirms user params.username = true → user.blocked = false)
    (admitted : request.admits user = true) : user.blocked = false := by
  unfold Request.admits at admitted
  split at admitted
  case h_4 params => exact joined params rfl admitted
  case h_5 => cases admitted
  all_goals
    simp only [Bool.and_eq_true, Bool.not_eq_true'] at admitted
    exact admitted.1

end Recognising

/-- No event recognises a blocked user, where the two paths that do not ask are
spared one. -/
theorem recognised_unblocked {event : Event accounts} {request : Request} {user : Uuid}
    (happened : event.Happened) (blocked : event.before.database.Blocked user)
    (spared : request.UnblockedAt event) : request.recognised state event ≠ some user := by
  intro recognised
  rcases event with ⟨process, before, operation, result, after⟩
  have occurs : accounts.Occurs before operation result after := happened
  have refuted : ∀ row, before.database.users.find user = some row → row.blocked = false →
      False := fun row found unblocked => by
    rw [blocked.blocked row found] at unblocked
    cases unblocked
  simp only [Request.recognised] at recognised
  split at recognised
  · obtain ⟨database, executed, rfl⟩ := occurs_ok occurs
    unfold Request.recognises at recognised
    split at recognised
    · rename_i tokenHash row
      cases recognised
      obtain ⟨found, unblocked⟩ :=
        Sql.userFromToken_found (congrArg Prod.fst (Except.ok.inj executed))
      exact refuted row found unblocked
    · rename_i identifier choice row
      split at recognised
      · rename_i accepted
        cases recognised
        obtain ⟨password, -, verified⟩ := (Option.any_eq_true _ _).mp accepted
        have found := Sql.selectByIdentifier_found (congrArg Prod.fst (Except.ok.inj executed))
        exact refuted row found (Identity.unblocked_of_accepted verified)
      · cases recognised
    · rename_i id row
      have found : before.database.users.find id = some row :=
        congrArg Prod.fst (Except.ok.inj executed)
      split at recognised
      · rename_i admitted
        cases recognised
        refine refuted row (Database.id_of_find found ▸ found)
          (Request.unblocked_of_admits ?_ admitted)
        rintro params rfl confirmed
        exact spared row found confirmed
      · cases recognised
    · rename_i ticketId tokenHash guest
      subst recognised
      have valid := congrArg Prod.fst (Except.ok.inj executed)
      have asked : Sql.ticketValid before.clock ticketId tokenHash (some user)
          before.database = true → ∃ row ∈ before.database.users.find user,
            row.blocked = false := by
        simpa [Request.UnblockedAt] using spared
      obtain ⟨row, found, unblocked⟩ := asked valid
      exact refuted row found unblocked
    · rename_i inserted row
      split at recognised
      · cases recognised
        rcases Sql.insertUser_ok executed with ⟨_, impossible, -⟩ | ⟨users, grown, -, same, -⟩
        · cases impossible
        · cases same
          exact (Table.insert_rows grown).2.2 blocked.issued
      · cases recognised
    · cases recognised
  · cases recognised

theorem recognised_of_blocking {event : Event accounts} {request : Request}
    {blocked : Uuid × Bool} (blocks : blocking event = some blocked) :
    request.recognised state event = none := by
  rcases event with ⟨process, before, operation, result, after⟩
  simp only [blocking] at blocks
  split at blocks
  · rfl
  · cases blocks

/-- Where announced joins and tickets belong to users that are not blocked, a block
takes effect. -/
theorem block_takes_effect (state : AppState) (database : Database) (clock : Timestamp)
    {moves : List (Move Request)} {final : Pool accounts Request (Except AppError Reply)}
    (reached : run (Pool.move (handle state)) (.initial (.boot database clock)) moves =
      some final)
    (spared : ∀ event ∈ final.history, ∀ request ∈ final.owner event.process,
      request.UnblockedAt event) : BlockTakesEffect state final := by
  intro newer block older user history blocks keeps index request owned served
  have traced := Pool.traced_of_run reached
  obtain ⟨event, member, own, recognised⟩ := recognised_of_served reached owned served
  have spare := spared event member request (own ▸ owned)
  rw [history] at traced member
  have blockSuffix : block :: older <:+ newer ++ block :: older := List.suffix_append _ _
  have blocked := blocked_of_block (traced.of_suffix blockSuffix).2 blocks
  rcases List.mem_append.mp member with later | here
  · -- a recognition after the block finds the row still blocked
    obtain ⟨before, suffix⟩ := suffix_of_mem later
    obtain ⟨since, happened⟩ := traced.of_append.of_suffix suffix
    exact (recognised_unblocked happened (blocked_since since blocked fun one within =>
      keeps one (suffix.subset (List.mem_cons_of_mem _ within))) spare recognised).elim
  · rcases List.mem_cons.mp here with rfl | earlier
    · rw [recognised_of_blocking blocks] at recognised
      cases recognised
    · exact ⟨event, earlier, own, recognised⟩

/-! ## A join announced before the block -/

def alex : User where
  id := 6
  minecraftUuid := none
  username := "Alex"
  normalizedUsername := "alex"
  email := none
  passwordHash := some "admin"
  profileUuid := some "00000000000000000000000000000006"
  confirmed := true
  blocked := false
  isAdmin := true

def adminDatabase : Database :=
  { steveDatabase with
    users := {
      rows := [steve, alex]
      issued := [5, 6]
      keysUnique := by decide
      slotsUnique := by decide
      keysIssued := by decide }
    sessions := {
      rows := [⟨"session", 5, 100000000, none⟩, ⟨"admin", 6, 100000000, none⟩]
      issued := ["session", "admin"]
      keysUnique := by decide
      slotsUnique := by decide
      keysIssued := by decide } }

def bearing (token : String) : Parts where
  method := .post
  headers := [("authorization", "Bearer " ++ token)]

/-- The session of the user works before the block and not after it. -/
def blockedBetween : List (Move Request) :=
  [.start (.me (bearing "session")), .advance 0, .start (.blockUser (bearing "admin") 5)] ++
    List.replicate 3 (.advance 1) ++ [.start (.me (bearing "session")), .advance 2]

theorem block_takes_effect_between :
    ∃ final, run (Pool.move (handle plainState)) (.initial (.boot adminDatabase 0))
        blockedBetween = some final ∧
      (∃ event ∈ final.history, blocking event = some (5, true)) ∧
      servedAs final 0 = some 5 ∧ servedAs final 2 = none ∧
      BlockTakesEffect plainState final := by
  have blocked : ((run (Pool.move (handle plainState)) (.initial (.boot adminDatabase 0))
      blockedBetween).map fun final => decide (
        ((∃ event ∈ final.history, blocking event = some (5, true)) ∧
          servedAs final 0 = some 5 ∧ servedAs final 2 = none) ∧
        ∀ event ∈ final.history, ∀ request ∈ final.owner event.process,
          request.UnblockedAt event)) = some true := by
    decide +kernel
  rcases Option.map_eq_some_iff.mp blocked with ⟨final, reached, holds⟩
  rcases of_decide_eq_true holds with ⟨⟨blocks, before, after⟩, spared⟩
  exact ⟨final, reached, blocks, before, after,
    block_takes_effect plainState adminDatabase 0 reached spared⟩

/-- The game server asks about the join after the user has been blocked. -/
def joinedThenBlocked : List (Move Request) :=
  .start (.join ⟨"access", "00000000000000000000000000000005", "server"⟩) ::
    List.replicate 4 (.advance 0) ++ [.start (.blockUser (bearing "admin") 5)] ++
    List.replicate 3 (.advance 1) ++ [.start (.hasJoined ⟨"Steve", "server", none⟩)] ++
    List.replicate 3 (.advance 2)

/-- A blocked user is let into a game. -/
theorem blocked_user_joins :
    ¬∀ (state : AppState) (database : Database) (clock : Timestamp)
      (moves : List (Move Request)) (final : Pool accounts Request (Except AppError Reply)),
      run (Pool.move (handle state)) (.initial (.boot database clock)) moves = some final →
        BlockTakesEffect state final := by
  intro effective
  have joined : ((run (Pool.move (handle plainState)) (.initial (.boot adminDatabase 0))
      joinedThenBlocked).map fun final => decide (
        ((final.history[3]?).bind blocking = some (5, true) ∧
          ∀ event ∈ final.history.take 3, blocking event ≠ some (5, false)) ∧
        (final.owner 2).isSome = true ∧ servedAs final 2 = some 5 ∧
        ∀ event ∈ final.history.drop 4, event.process ≠ 2)) = some true := by
    decide +kernel
  rcases Option.map_eq_some_iff.mp joined with ⟨final, reached, holds⟩
  rcases of_decide_eq_true holds with ⟨⟨blocks, keeps⟩, owned, served, unrecognised⟩
  rcases Option.bind_eq_some_iff.mp blocks with ⟨block, found, blocks⟩
  rcases Option.isSome_iff_exists.mp owned with ⟨request, owned⟩
  have history : final.history = final.history.take 3 ++ block :: final.history.drop 4 := by
    obtain ⟨bound, rfl⟩ := List.getElem?_eq_some_iff.mp found
    rw [List.getElem_cons_drop, List.take_append_drop]
  obtain ⟨event, member, own, -⟩ := effective plainState adminDatabase 0 joinedThenBlocked final
    reached _ block _ 5 history blocks keeps 2 request owned served
  exact unrecognised event member own

end Loontail.Accounts
