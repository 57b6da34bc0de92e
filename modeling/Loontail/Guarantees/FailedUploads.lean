import Loontail.Bundles.DiskCalls
import Loontail.Concurrency.Evaluate
import Loontail.Guarantees.SingularRoles

/-! # What a failed upload leaves

The rows that an upload replaces come back when it fails. Their files were unlinked before the
new row was inserted, and do not. -/

namespace Loontail.Catalog

open Concurrency Disk Relational
open Bundles (DiskCall Multipart)

/-! ## What an upload tries -/

def tries (path : List String) : Event mediaStore → Bool
  | ⟨_, _, .disk (.removeFile other), _, _⟩ => other = path
  | _ => false

def unlinks (path : List String) : Event mediaStore → Bool
  | ⟨_, _, .disk (.removeFile other), .ok _, _⟩ => other = path
  | _ => false

def inserts : Event mediaStore → Bool
  | ⟨_, _, .statement (.insert ..), _, _⟩ => true
  | _ => false

/-- Every attempt to unlink the file failed, and there was one. -/
def Refused (events : List (Event mediaStore)) (path : List String) : Prop :=
  events.any (tries path) = true ∧ events.any (unlinks path) = false

def ReplacedFile (storageRoot : List String) (before : MediaService) (clientId : Uuid)
    (multipart : Multipart) (path : List String) : Prop :=
  ∃ file role kind, readUpload multipart = .ok (file, role, kind) ∧ role ∈ singularRoles ∧
    ∃ row ∈ before.media.committed, row.slot = (clientId, role) ∧
      urlToDiskPath storageRoot row.url = some path

def FilesKept (storageRoot : List String) (before after : MediaService) : Prop :=
  ∀ row ∈ before.media.committed, ∀ path, urlToDiskPath storageRoot row.url = some path →
    before.disk.isFile path = true → after.disk.isFile path = true

theorem tries_of_unlinks {path : List String} {event : Event mediaStore}
    (unlinked : unlinks path event = true) : tries path event = true := by
  unfold unlinks at unlinked
  split at unlinked
  · exact unlinked
  · cases unlinked

/-! ## What it has done so far -/

abbrev Recorded := MediaService × List (Event mediaStore)

/-- Nothing is lost, and nothing was to be unlinked or inserted. -/
structure Early (start : MediaService) (situation : Recorded) : Prop where
  rows : situation.1.media.committed = start.media.committed
  files : ∀ path, start.disk.isFile path = true → situation.1.disk.isFile path = true
  untried : ∀ path, situation.2.any (tries path) = false
  uninserted : situation.2.any inserts = false

/-- The files that are lost are those that were unlinked, and only doomed ones were to be. -/
structure Accounted (doomed : List String → Prop) (start : MediaService)
    (situation : Recorded) : Prop where
  rows : situation.1.media.committed = start.media.committed
  files : ∀ path, start.disk.isFile path = true →
    situation.1.disk.isFile path = !situation.2.any (unlinks path)
  named : ∀ path, situation.2.any (tries path) = true → doomed path

structure Late (doomed : List String → Prop) (start : MediaService) (situation : Recorded) :
    Prop extends Accounted doomed start situation where
  complete : ∀ path, doomed path → situation.2.any (tries path) = true

/-- How an upload fails: before it unlinks anything, or when it has come to its insertion. -/
def Failed (doomed : List String → Prop) (start : MediaService) (situation : Recorded) : Prop :=
  Early start situation ∨ Late doomed start situation ∧ situation.2.any inserts = true

section Accounts

variable {storageRoot : List String} {doomed : List String → Prop}
  {start now after : MediaService} {history : List (Event mediaStore)} {index : Nat}
  {operation : MediaOperation} {result : operation.Result}

theorem Early.initial (start : MediaService) : Early start (start, []) where
  rows := rfl
  files := fun _ there => there
  untried := fun _ => rfl
  uninserted := rfl

theorem Early.accounted {situation : Recorded} (early : Early start situation) :
    Accounted doomed start situation where
  rows := early.rows
  files := fun path there => by
    have unlinked : situation.2.any (unlinks path) = false := by
      refine List.any_eq_false.mpr fun event member unlinked => ?_
      exact List.any_eq_false.mp (early.untried path) event member (tries_of_unlinks unlinked)
    rw [unlinked]
    exact early.files path there
  named := fun path tried => by
    rw [early.untried] at tried
    cases tried

theorem Early.idle (early : Early start (now, history))
    (rows : after.media.committed = now.media.committed)
    (files : ∀ path, now.disk.isFile path = true → after.disk.isFile path = true)
    (untried : ∀ path, tries path ⟨index, now, operation, result, after⟩ = false)
    (uninserted : inserts ⟨index, now, operation, result, after⟩ = false) :
    Early start (after, ⟨index, now, operation, result, after⟩ :: history) where
  rows := rows.trans early.rows
  files := fun path there => files path (early.files path there)
  untried := fun path => by
    rw [List.any_cons, untried]
    exact early.untried path
  uninserted := by
    rw [List.any_cons, uninserted]
    exact early.uninserted

theorem Accounted.idle (accounted : Accounted doomed start (now, history))
    (rows : after.media.committed = now.media.committed) (disk : after.disk = now.disk)
    (untried : ∀ path, tries path ⟨index, now, operation, result, after⟩ = false) :
    Accounted doomed start (after, ⟨index, now, operation, result, after⟩ :: history) where
  rows := rows.trans accounted.rows
  files := fun path there => by
    have kept : unlinks path ⟨index, now, operation, result, after⟩ = false := by
      refine Bool.eq_false_iff.mpr fun unlinked => ?_
      have tried := tries_of_unlinks unlinked
      rw [untried] at tried
      cases tried
    rw [disk, List.any_cons, kept]
    exact accounted.files path there
  named := fun path tried => by
    rw [List.any_cons, untried] at tried
    exact accounted.named path tried

theorem Late.idle (late : Late doomed start (now, history))
    (rows : after.media.committed = now.media.committed) (disk : after.disk = now.disk)
    (untried : ∀ path, tries path ⟨index, now, operation, result, after⟩ = false) :
    Late doomed start (after, ⟨index, now, operation, result, after⟩ :: history) where
  toAccounted := late.toAccounted.idle rows disk untried
  complete := fun path wanted => by
    rw [List.any_cons, late.complete path wanted, Bool.or_true]

theorem Failed.rolledBack {transaction : Nat} {result : (MediaOperation.rollback transaction).Result}
    (failed : Failed doomed start (now, history))
    (occurs : mediaStore.Occurs now (.rollback transaction) result after) :
    Failed doomed start (after, ⟨index, now, .rollback transaction, result, after⟩ :: history) := by
  have rows : after.media.committed = now.media.committed := by
    rw [occurs_rollback occurs]
    exact ReadCommitted.put_committed
  have disk : after.disk = now.disk := by rw [occurs_rollback occurs]
  rcases failed with early | ⟨late, inserted⟩
  · refine .inl (early.idle rows (fun path there => ?_) (fun _ => rfl) rfl)
    rw [disk]
    exact there
  · refine .inr ⟨late.idle rows disk fun _ => rfl, ?_⟩
    rw [List.any_cons, inserted, Bool.or_true]

/-- A failed upload keeps the files exactly if the disk refused to unlink each that was there. -/
theorem Failed.kept_iff {clientId : Uuid} {multipart : Multipart}
    (failed : Failed (ReplacedFile storageRoot start clientId multipart) start (after, history)) :
    FilesKept storageRoot start after ↔ (history.any inserts = true → ∀ path,
      ReplacedFile storageRoot start clientId multipart path → start.disk.isFile path = true →
        Refused history path) := by
  rcases failed with early | ⟨late, inserted⟩
  · have uninserted : history.any inserts = false := early.uninserted
    rw [uninserted]
    exact iff_of_true (fun _ _ path _ there => early.files path there) nofun
  · constructor
    · rintro kept - path replaced there
      refine ⟨late.complete path replaced, ?_⟩
      obtain ⟨_, _, _, -, -, row, member, -, link⟩ := replaced
      have still : after.disk.isFile path = true := kept row member path link there
      rw [late.files path there, Bool.not_eq_true'] at still
      exact still
    · intro refused row member path link there
      have file : after.disk.isFile path = !history.any (unlinks path) := late.files path there
      cases unlinked : history.any (unlinks path) with
      | false =>
          rw [file, unlinked]
          rfl
      | true =>
          obtain ⟨event, happened, gone⟩ := List.any_eq_true.mp unlinked
          have doomed := late.named path
            (List.any_eq_true.mpr ⟨event, happened, tries_of_unlinks gone⟩)
          rw [(refused inserted path doomed there).2] at unlinked
          cases unlinked

/-! ### One operation -/

/-- A statement changes the committed rows by a commit only, and never the disk. -/
theorem statement_still {statement : MediaStatement}
    {result : (MediaOperation.statement statement).Result} (index : Nat)
    (occurs : mediaStore.Occurs now (.statement statement) result after)
    (uncommitted : commits ⟨index, now, .statement statement, result, after⟩ = false) :
    after.media.committed = now.media.committed ∧ after.disk = now.disk := by
  rcases occurs_statement occurs with executed | ⟨-, rfl⟩
  · cases statement with
    | clientExists id =>
        cases executed
        exact ⟨rfl, rfl⟩
    | begin =>
        cases executed
        exact ⟨rfl, rfl⟩
    | look transaction rows =>
        cases executed
        exact ⟨rfl, rfl⟩
    | take transaction id =>
        cases executed
        exact ⟨ReadCommitted.take_committed, rfl⟩
    | insert transaction media made =>
        simp only [MediaStatement.execute] at executed
        split at executed
        · cases executed
          exact ⟨ReadCommitted.put_committed, rfl⟩
        · cases executed
          exact ⟨rfl, rfl⟩
    | commit transaction =>
        cases executed
        cases uncommitted
  · exact ⟨rfl, rfl⟩

theorem Early.asked {statement : MediaStatement}
    {result : (MediaOperation.statement statement).Result} (early : Early start (now, history))
    (index : Nat) (occurs : mediaStore.Occurs now (.statement statement) result after)
    (uncommitted : commits ⟨index, now, .statement statement, result, after⟩ = false)
    (uninserted : inserts ⟨index, now, .statement statement, result, after⟩ = false) :
    Early start (after, ⟨index, now, .statement statement, result, after⟩ :: history) := by
  obtain ⟨rows, disk⟩ := statement_still index occurs uncommitted
  refine early.idle rows (fun path there => ?_) (fun _ => rfl) uninserted
  rw [disk]
  exact there

theorem Early.called {call : DiskCall} {result : (MediaOperation.disk call).Result}
    (early : Early start (now, history)) (index : Nat)
    (occurs : mediaStore.Occurs now (.disk call) result after)
    (files : ∀ path, now.disk.isFile path = true → (call.perform now.disk).2.isFile path = true)
    (untried : ∀ path, tries path ⟨index, now, .disk call, result, after⟩ = false) :
    Early start (after, ⟨index, now, .disk call, result, after⟩ :: history) := by
  have still : after.media = now.media ∧ ∀ path, now.disk.isFile path = true →
      after.disk.isFile path = true := by
    rcases occurs_disk occurs with ⟨-, rfl⟩ | ⟨-, rfl⟩
    · exact ⟨rfl, files⟩
    · exact ⟨rfl, fun _ => id⟩
  exact early.idle (by rw [still.1]) still.2 untried rfl

theorem executed_ok {statement : MediaStatement} {reply : statement.Reply}
    (occurs : mediaStore.Occurs now (.statement statement) (.ok reply) after) :
    statement.execute now = (.ok reply, after) := by
  rcases occurs_statement occurs with executed | ⟨lost, -⟩
  · exact executed
  · cases lost

theorem createDirAll_files {disk : Tree String Bytes} {path other : List String}
    (file : disk.isFile other = true) :
    ((DiskCall.createDirAll path).perform disk).2.isFile other = true := by
  obtain ⟨content, found⟩ := Tree.isFile_iff.mp file
  have present : (disk.find other).isSome := by
    rw [found]
    rfl
  refine (Tree.isFile_congr ?_).trans file
  exact DiskCall.perform_spares trivial present

theorem written_files {disk : Tree String Bytes} {path other : List String} {content : Bytes}
    (file : disk.isFile other = true) :
    (DiskCall.settle disk (disk.writeFile path content)).2.isFile other = true := by
  cases made : disk.writeFile path content with
  | error error => exact file
  | ok after =>
      by_cases here : other = path
      · subst here
        refine Tree.isFile_iff.mpr ⟨content, ?_⟩
        have found := congrFun (Tree.writeFile_ok made).1 other
        rw [Tree.withFile, if_pos rfl] at found
        exact found
      · exact (Tree.isFile_congr (Tree.writeFile_keeps made here)).trans file

theorem appended_files {disk : Tree String Bytes} {path other : List String} {data : Bytes}
    (file : disk.isFile other = true) :
    ((DiskCall.append path data).perform disk).2.isFile other = true := by
  have performed : (DiskCall.append path data).perform disk =
      DiskCall.settle disk (DiskCall.appended disk path data) := rfl
  rw [performed, DiskCall.appended]
  split
  · exact written_files file
  · exact file

theorem Accounted.unlinked {path : List String}
    {result : (MediaOperation.disk (.removeFile path)).Result}
    (accounted : Accounted doomed start (now, history)) (index : Nat) (wanted : doomed path)
    (occurs : mediaStore.Occurs now (.disk (.removeFile path)) result after) :
    Accounted doomed start
      (after, ⟨index, now, .disk (.removeFile path), result, after⟩ :: history) := by
  have named : ∀ other, (⟨index, now, .disk (.removeFile path), result, after⟩ ::
      history : List (Event mediaStore)).any (tries other) = true → doomed other := by
    intro other tried
    rw [List.any_cons, Bool.or_eq_true] at tried
    rcases tried with here | earlier
    · exact of_decide_eq_true here ▸ wanted
    · exact accounted.named other earlier
  have failed : ∀ error, result = .error error → after = now → Accounted doomed start
      (after, ⟨index, now, .disk (.removeFile path), result, after⟩ :: history) := by
    rintro error rfl rfl
    exact ⟨accounted.rows, accounted.files, named⟩
  rcases occurs_disk occurs with ⟨rfl, rfl⟩ | ⟨rfl, rfl⟩
  · rcases DiskCall.settle_cases now.disk (now.disk.removeFile path) with
      ⟨tree, removed, settled⟩ | ⟨error, -, settled⟩
    · have performed : (DiskCall.removeFile path).perform now.disk = (.ok (), tree) := settled
      rw [performed] at named ⊢
      refine ⟨accounted.rows, fun other there => ?_, named⟩
      rw [List.any_cons]
      by_cases same : path = other
      · subst same
        have missing := congrFun (Tree.removeFile_ok removed).1 path
        rw [Tree.withoutFile, if_pos rfl] at missing
        have gone : tree.isFile path = false := by rw [Tree.isFile, missing]
        simpa [unlinks] using gone
      · have kept : tree.isFile other = now.disk.isFile other :=
          Tree.isFile_congr (Tree.removeFile_keeps removed (Ne.symm same))
        simpa [unlinks, same, kept] using accounted.files other there
    · have performed : (DiskCall.removeFile path).perform now.disk = (.error error, now.disk) :=
        settled
      refine failed error ?_ ?_
      · rw [performed]
      · rw [performed]
  · exact failed .device rfl rfl

end Accounts

/-! ## The course of an upload -/

section Course

variable {storageRoot : List String} {doomed : List String → Prop}
  {start now : MediaService} {history : List (Event mediaStore)} {index transaction : Nat}

theorem requireClient_early (clientId : Uuid) (early : Early start (now, history)) :
    (requireClient clientId).Meets (.recorded mediaStore index) (fun _ => Early start)
      (fun _ => Early start) (now, history) := by
  unfold requireClient
  simp only [Fallible.meets_bind, meets_ask]
  intro result after occurs
  have still := early.asked index occurs rfl rfl
  cases result with
  | error error => exact still
  | ok present => exact (Fallible.meets_refuse _ _).mpr ⟨fun _ => still, fun _ => still⟩

theorem writeFile_early (path : List String) (bytes : Bytes) (early : Early start (now, history)) :
    (writeFile path bytes).Meets (.recorded mediaStore index) (fun _ => Early start)
      (fun _ => Early start) (now, history) := by
  unfold writeFile
  simp only [Fallible.meets_bind, meets_ioMedia]
  intro result made occurs
  have first := early.called index occurs (fun _ => createDirAll_files) fun _ => rfl
  cases result with
  | error error => exact first
  | ok answer =>
      intro result created occurs
      have second := first.called index occurs (fun _ => written_files) fun _ => rfl
      cases result with
      | error error => exact second
      | ok answer =>
          intro result written occurs
          have third := second.called index occurs (fun _ => appended_files) fun _ => rfl
          cases result with
          | error error => exact third
          | ok answer => exact third

theorem takeAll_early {rows : List StoredMedia} (early : Early start (now, history))
    (opened : transaction < now.media.begun)
    (pristine : (now.media.writes transaction).inserted = [])
    (keys : (start.media.committed.map mediaKey).Nodup) (distinct : (rows.map mediaKey).Nodup)
    (remain : ∀ row ∈ rows, row ∈ now.media.remaining mediaKey transaction) :
    (takeAll transaction (rows.map mediaKey)).Meets (.recorded mediaStore index)
      (fun urls following => urls = rows.map (·.url) ∧ Early start following)
      (fun _ => Early start) (now, history) := by
  induction rows generalizing now history with
  | nil => exact ⟨rfl, early⟩
  | cons first rest induction =>
      rw [List.map_cons, takeAll]
      simp only [Fallible.meets_bind, meets_ask]
      intro result after occurs
      have still := early.asked index occurs rfl rfl
      cases result with
      | error error => exact still
      | ok url =>
          have executed := executed_ok occurs
          rw [List.map_cons, List.nodup_cons] at distinct
          have visible : now.media.visible mediaKey transaction =
              now.media.remaining mediaKey transaction := by
            rw [ReadCommitted.visible, pristine, List.append_nil]
          have member := remain first List.mem_cons_self
          have taken : (now.media.take mediaKey transaction first.id).1 = some first := by
            refine ReadCommitted.take_only (visible ▸ member) fun other listed same => ?_
            rw [visible] at listed
            have committed := (ReadCommitted.mem_remaining.mp listed).1
            have here := (ReadCommitted.mem_remaining.mp member).1
            have rows : now.media.committed = start.media.committed := early.rows
            rw [rows] at committed here
            exact List.inj_on_of_nodup_map keys committed here same
          cases executed
          have urls : ((now.media.take mediaKey transaction first.id).1.map (·.url)).toList =
              [first.url] := by
            rw [taken]
            rfl
          refine (induction still ?_ ?_ distinct.2 fun row listed => ?_).mono ?_
            fun _ _ failed => failed
          · change transaction < (now.media.take mediaKey transaction first.id).2.begun
            rw [ReadCommitted.take_begun]
            exact opened
          · exact ReadCommitted.take_inserted opened pristine
          · change row ∈ (now.media.take mediaKey transaction first.id).2.remaining mediaKey _
            rw [ReadCommitted.take_remaining opened, List.mem_filter]
            refine ⟨remain row (List.mem_cons_of_mem _ listed), decide_eq_true fun same => ?_⟩
            exact distinct.1 (List.mem_map.mpr ⟨row, listed, same⟩)
          · rintro _ following ⟨rfl, later⟩
            exact ⟨congrArg (· ++ _) urls, later⟩

theorem deleteReturning_early (rows : MediaFilter) (early : Early start (now, history))
    (opened : transaction < now.media.begun)
    (pristine : now.media.writes transaction = .empty)
    (keys : (start.media.committed.map mediaKey).Nodup) :
    (deleteReturning transaction rows).Meets (.recorded mediaStore index)
      (fun urls following =>
        urls = (start.media.committed.filter rows.matches).map (·.url) ∧ Early start following)
      (fun _ => Early start) (now, history) := by
  unfold deleteReturning
  simp only [Fallible.meets_bind, meets_ask]
  intro result after occurs
  have still := early.asked index occurs rfl rfl
  cases result with
  | error error => exact still
  | ok ids =>
      have executed := executed_ok occurs
      cases executed
      have committed : now.media.committed = start.media.committed := early.rows
      have remaining : now.media.remaining mediaKey transaction = start.media.committed := by
        rw [ReadCommitted.remaining, pristine, committed]
        exact List.filter_eq_self.mpr fun row _ => decide_eq_true List.not_mem_nil
      have found : now.media.look mediaKey transaction rows.matches =
          (start.media.committed.filter rows.matches).map mediaKey := by
        rw [ReadCommitted.look, ReadCommitted.visible, remaining, pristine]
        exact congrArg (fun shown => (List.filter rows.matches shown).map mediaKey)
          (List.append_nil _)
      rw [found] at still ⊢
      refine takeAll_early still opened ?_ keys ?_ fun row member => ?_
      · rw [pristine]
        rfl
      · exact keys.sublist (List.filter_sublist.map _)
      · rw [remaining]
        exact List.mem_of_mem_filter member

theorem unlinkUrls_accounted {urls : List String} (accounted : Accounted doomed start (now, history))
    (wanted : ∀ url ∈ urls, ∀ path, urlToDiskPath storageRoot url = some path → doomed path) :
    (unlinkUrls storageRoot urls).Meets (.recorded mediaStore index)
      (fun _ following => Accounted doomed start following ∧ ∀ path,
        history.any (tries path) = true ∨
          (∃ url ∈ urls, urlToDiskPath storageRoot url = some path) →
        following.2.any (tries path) = true)
      (fun _ _ => False) (now, history) := by
  induction urls generalizing now history with
  | nil => exact ⟨accounted, fun path tried => tried.resolve_right (by simp)⟩
  | cons url rest induction =>
      rw [unlinkUrls, Fallible.meets_bind, unlinkUrl]
      have others := fun other listed => wanted other (List.mem_cons_of_mem _ listed)
      split
      · rename_i path link
        intro result after occurs
        have first := accounted.unlinked index (wanted url List.mem_cons_self path link) occurs
        refine (induction first others).mono ?_ fun _ _ => id
        rintro _ following ⟨done, tried⟩
        refine ⟨done, fun other asked => tried other ?_⟩
        rw [List.any_cons, Bool.or_eq_true]
        rcases asked with earlier | ⟨name, listed, named⟩
        · exact .inl (.inr earlier)
        · rcases List.mem_cons.mp listed with rfl | later
          · rw [link] at named
            exact .inl (.inl (decide_eq_true (Option.some.inj named)))
          · exact .inr ⟨name, later, named⟩
      · rename_i foreign
        refine (induction accounted others).mono ?_ fun _ _ => id
        rintro _ following ⟨done, tried⟩
        refine ⟨done, fun path asked => tried path (asked.imp_right ?_)⟩
        rintro ⟨other, listed, link⟩
        rcases List.mem_cons.mp listed with rfl | later
        · rw [foreign] at link
          cases link
        · exact ⟨other, later, link⟩

theorem insert_late {media : NewMedia} {made : Timestamp} {situation : Recorded}
    (late : Late doomed start situation) :
    Fallible.Meets (do
      let id ← ask (.insert transaction media made)
      ask (.commit transaction)
      pure id : MediaHandler Uuid) (.recorded mediaStore index) (fun _ _ => True)
      (fun _ => Failed doomed start) situation := by
  simp only [Fallible.meets_bind, meets_ask]
  intro result after occurs
  obtain ⟨rows, disk⟩ := statement_still index occurs rfl
  have still : Late doomed start (after,
      ⟨index, situation.1, .statement (.insert transaction media made), result, after⟩ ::
        situation.2) := late.idle rows disk fun _ => rfl
  cases result with
  | error error => exact .inr ⟨still, rfl⟩
  | ok id =>
      intro result last occurs
      cases result with
      | ok committed => trivial
      | error error =>
          obtain ⟨rows, disk⟩ := statement_still index occurs rfl
          exact .inr ⟨still.idle rows disk fun _ => rfl, rfl⟩

theorem storeMedia_failed {media : NewMedia} {made : Timestamp}
    (early : Early start (now, history)) (opened : transaction < now.media.begun)
    (pristine : now.media.writes transaction = .empty)
    (keys : (start.media.committed.map mediaKey).Nodup)
    (dooms : ∀ path, doomed path ↔ media.role ∈ singularRoles ∧
      ∃ row ∈ start.media.committed, row.slot = (media.clientId, media.role) ∧
        urlToDiskPath storageRoot row.url = some path) :
    (storeMedia storageRoot media made transaction).Meets (.recorded mediaStore index)
      (fun _ _ => True) (fun _ => Failed doomed start) (now, history) := by
  unfold storeMedia
  split
  · rename_i singular
    simp only [Fallible.meets_bind]
    refine (deleteReturning_early _ early opened pristine keys).mono ?_ fun _ _ => .inl
    rintro _ ⟨after, later⟩ ⟨rfl, still⟩
    have matching : ∀ row, (MediaFilter.ofRole media.clientId media.role).matches row = true ↔
        row.slot = (media.clientId, media.role) := by
      intro row
      simp [MediaFilter.matches, StoredMedia.slot]
    have accounted : Accounted doomed start (after, later) := still.accounted
    refine (unlinkUrls_accounted accounted fun url listed path link => ?_).mono ?_
      fun _ _ => False.elim
    · obtain ⟨row, member, rfl⟩ := List.mem_map.mp listed
      obtain ⟨committed, here⟩ := List.mem_filter.mp member
      exact (dooms path).mpr ⟨singular, row, committed, (matching row).mp here, link⟩
    · rintro _ following ⟨done, tried⟩
      have late : Late doomed start following := by
        refine ⟨done, fun path wanted => tried path (.inr ?_)⟩
        obtain ⟨-, row, committed, slot, link⟩ := (dooms path).mp wanted
        refine ⟨row.url, List.mem_map.mpr ⟨row, List.mem_filter.mpr ⟨committed, ?_⟩, rfl⟩, link⟩
        exact (matching row).mpr slot
      simpa only [Fallible.meets_bind] using insert_late late
  · rename_i plural
    have late : Late doomed start (now, history) :=
      ⟨early.accounted, fun path wanted => (plural ((dooms path).mp wanted).1).elim⟩
    simpa using insert_late late

theorem uploadMedia_failed (start : MediaService) (clientId : Uuid) (multipart : Multipart)
    (revision : String) (made : Timestamp) (keys : (start.media.committed.map mediaKey).Nodup) :
    (uploadMedia storageRoot clientId multipart revision made).Meets (.recorded mediaStore index)
      (fun _ _ => True)
      (fun _ => Failed (ReplacedFile storageRoot start clientId multipart) start)
      (start, []) := by
  unfold uploadMedia
  simp only [Fallible.meets_bind, Fallible.meets_lift]
  refine (requireClient_early clientId (.initial start)).mono ?_ fun _ _ => .inl
  rintro _ ⟨now, history⟩ early
  refine ⟨fun _ _ => .inl early, ?_⟩
  rintro ⟨file, role, kind⟩ read
  refine (writeFile_early _ _ early).mono ?_ fun _ _ => .inl
  rintro _ ⟨now, history⟩ early
  have dooms : ∀ path, ReplacedFile storageRoot start clientId multipart path ↔
      role ∈ singularRoles ∧ ∃ row ∈ start.media.committed, row.slot = (clientId, role) ∧
        urlToDiskPath storageRoot row.url = some path := by
    intro path
    constructor
    · rintro ⟨_, _, _, same, replaced⟩
      cases read.symm.trans same
      exact replaced
    · exact fun replaced => ⟨file, role, kind, read, replaced⟩
  refine (meets_onTransaction _).mpr fun result after occurs => ?_
  have still := early.asked index occurs rfl rfl
  cases result with
  | error error => exact .inl still
  | ok transaction =>
      have executed := executed_ok occurs
      cases executed
      refine (storeMedia_failed still (Nat.lt_succ_self _) (now.media.unbegun _ (Nat.le_refl _))
        keys dooms).mono (fun _ _ _ => trivial) ?_
      rintro error ⟨after, later⟩ failed result final occurs
      exact failed.rolledBack occurs

/-- A failed upload leaves the rows. It keeps the files unless it came to its insertion: from
there on those of the rows that it replaces are kept only if the disk refused to unlink them. -/
theorem failed_upload_kept_iff {storageRoot : List String} {clientId : Uuid}
    {multipart : Multipart} {revision : String} {made : Timestamp} {index : Nat}
    {faults : List Bool} {before after : MediaService} {error : AppError}
    {events : List (Event mediaStore)} (keys : (before.media.committed.map mediaKey).Nodup)
    (executed : (handleMedia storageRoot (.upload clientId multipart revision made)).execute index
      faults before [] = some (.error error, after, events)) :
    after.media.committed = before.media.committed ∧
      (FilesKept storageRoot before after ↔ (events.any inserts = true → ∀ path,
        ReplacedFile storageRoot before clientId multipart path →
          before.disk.isFile path = true → Refused events path)) := by
  have fails : Process.Meets (.recorded mediaStore index) (fun outcome following =>
      (∃ error, outcome = .error error) →
        Failed (ReplacedFile storageRoot before clientId multipart) before following)
      (handleMedia storageRoot (.upload clientId multipart revision made)) (before, []) := by
    refine Fallible.meets_outcome.mpr ?_
    refine (uploadMedia_failed before clientId multipart revision made keys).mono ?_
      fun _ _ failed _ => failed
    rintro _ _ - ⟨_, ok⟩
    cases ok
  have failed : Failed (ReplacedFile storageRoot before clientId multipart) before
      (after, events) := Process.execute_recorded fails executed ⟨error, rfl⟩
  refine ⟨?_, failed.kept_iff⟩
  rcases failed with early | ⟨late, -⟩
  · exact early.rows
  · exact late.rows

end Course

def onePoster : MediaService :=
  ((handleMedia ["media"] (.upload 1 posterBody "a" 0)).evaluate oneClient).2

def posterPath : List String := diskPath ["media"] (idHex 1) .poster "a" "png"

/-- The next poster, whose insertion fails. -/
def secondPoster (unlinkFails : Bool) :
    Option (Except AppError MediaReply × MediaService × List (Event mediaStore)) :=
  (handleMedia ["media"] (.upload 1 posterBody "b" 0)).execute 0
    (List.replicate 7 false ++ [unlinkFails, true]) onePoster []

theorem failed_upload_kept_refused : ∃ error after events,
    secondPoster true = some (.error error, after, events) ∧
      after.media.committed = onePoster.media.committed ∧
        FilesKept ["media"] onePoster after := by
  have ended : ((secondPoster true).map fun ran => (ran.1.isOk, ran.2.2.any (tries posterPath),
      ran.2.2.any (unlinks posterPath))) = some (false, true, false) := by decide +kernel
  have linked : ∀ row ∈ onePoster.media.committed,
      urlToDiskPath ["media"] row.url = some posterPath := by decide +kernel
  obtain ⟨⟨outcome, after, events⟩, executed, seen⟩ := Option.map_eq_some_iff.mp ended
  cases outcome with
  | ok reply => cases seen
  | error error =>
      simp only [Prod.mk.injEq] at seen
      obtain ⟨rows, kept⟩ := failed_upload_kept_iff (by decide +kernel) executed
      refine ⟨error, after, events, executed, rows, kept.mpr ?_⟩
      rintro - path ⟨_, _, _, -, -, row, member, -, link⟩ -
      cases (linked row member).symm.trans link
      exact seen.2

theorem failed_upload_lost :
    ¬∀ (storageRoot : List String) (clientId : Uuid) (multipart : Multipart) (revision : String)
      (made : Timestamp) (index : Nat) (faults : List Bool) (before after : MediaService)
      (error : AppError) (events : List (Event mediaStore)),
      (before.media.committed.map mediaKey).Nodup →
      (handleMedia storageRoot (.upload clientId multipart revision made)).execute index faults
        before [] = some (.error error, after, events) →
      after.media.committed = before.media.committed ∧ FilesKept storageRoot before after := by
  intro always
  have ended : ((secondPoster false).map fun ran =>
      (ran.1.isOk, ran.2.1.disk.isFile posterPath)) = some (false, false) := by decide +kernel
  obtain ⟨⟨outcome, after, events⟩, executed, seen⟩ := Option.map_eq_some_iff.mp ended
  cases outcome with
  | ok reply => cases seen
  | error error =>
      obtain ⟨-, kept⟩ := always _ _ _ _ _ _ _ _ _ _ _ (by decide +kernel) executed
      have linked : ∃ row ∈ onePoster.media.committed,
          urlToDiskPath ["media"] row.url = some posterPath := by decide +kernel
      obtain ⟨row, member, link⟩ := linked
      have there : after.disk.isFile posterPath = true :=
        kept row member posterPath link (by decide +kernel)
      have gone := (Prod.mk.inj seen).2
      rw [there] at gone
      cases gone

end Loontail.Catalog
