import Loontail.Bundles.Manifest
import Loontail.Bundles.Statements
import Loontail.Concurrency.Fallible
import Loontail.Disk.Tree

/-! # The state that bundle handlers share

The tables, and the tree below `{storage_root}/builds`. A call on the tree is one step;
a manifest is replaced in one step, as its writer does while it is alone. What the
system refuses of a name (its length, a NUL) counts as a fault. -/

namespace Loontail.Bundles

open Concurrency Disk

abbrev Builds := Tree String Bytes

def buildPath (slug : String) : List String := [slug]

def filesPath (slug : String) : List String := [slug, "files"]

def manifestPath (slug : String) : List String := [slug, "artifacts.json"]

def stagedManifestPath (slug : String) : List String := [slug, "artifacts.json.tmp"]

/-- `upload-{uuid}.zip.tmp`. -/
def uploadPath (slug : String) (number : Nat) : List String :=
  [slug, "upload-" ++ toString number ++ ".zip.tmp"]

def joinFiles (filesRoot : List String) (relativePath : String) : List String :=
  filesRoot ++ segments relativePath

inductive DiskCall where
  | createDirAll (path : List String)
  | create (path : List String)
  | append (path : List String) (data : Bytes)
  | rename (source target : List String)
  | removeFile (path : List String)
  | removeDirAll (path : List String)
  | tryExists (path : List String)
  | isFile (path : List String)
  | read (path : List String)
  | probe (filesRoot : List String) (relativePaths : List String)
  | readDir (path : List String)
  | scan (filesRoot : List String)
  | writeManifest (slug : String) (json : Bytes)
  deriving DecidableEq, Repr

namespace DiskCall

@[reducible] def Answer : DiskCall → Type
  | tryExists _ => Bool
  | isFile _ => Bool
  | read _ => Bytes
  | probe .. => List String
  | scan _ => List (List String × Node Bytes)
  | _ => Unit

def settle (disk : Builds) : Except IoError Builds → Except IoError Unit × Builds
  | .ok after => (.ok (), after)
  | .error error => (.error error, disk)

theorem settle_cases (disk : Builds) (made : Except IoError Builds) :
    (∃ tree, made = .ok tree ∧ settle disk made = (.ok (), tree)) ∨
      ∃ error, made = .error error ∧ settle disk made = (.error error, disk) := by
  cases made with
  | ok tree => exact .inl ⟨tree, rfl, rfl⟩
  | error error => exact .inr ⟨error, rfl, rfl⟩

/-- Writing goes to the end of a file that the caller has open. -/
def appended (disk : Builds) (path : List String) (data : Bytes) : Except IoError Builds :=
  match disk.find path with
  | some (.file content) => disk.writeFile path (content ++ data)
  | _ => .ok disk

/-- `write_manifest_atomic`. -/
def replaceManifest (disk : Builds) (slug : String) (json : Bytes) :
    Except IoError Unit × Builds :=
  match disk.createDirAll (buildPath slug) with
  | .error error => (.error error, disk)
  | .ok made =>
      match made.writeFile (stagedManifestPath slug) json with
      | .error error => (.error error, made)
      | .ok staged => settle staged (staged.rename (stagedManifestPath slug) (manifestPath slug))

def perform (disk : Builds) : (call : DiskCall) → Except IoError call.Answer × Builds
  | createDirAll path => settle disk (disk.createDirAll path)
  | create path => settle disk (disk.writeFile path [])
  | append path data => settle disk (appended disk path data)
  | rename source target => settle disk (disk.rename source target)
  | removeFile path => settle disk (disk.removeFile path)
  | removeDirAll path => settle disk (disk.removeDirAll path)
  | tryExists path => (.ok (disk.present path), disk)
  | isFile path => (.ok (disk.isFile path), disk)
  | read path => (disk.read path, disk)
  | probe filesRoot relativePaths =>
      (.ok (relativePaths.filter fun path => disk.present (joinFiles filesRoot path)), disk)
  | readDir path => (disk.readDir path, disk)
  | scan filesRoot => (.ok (disk.below (fun left right => left < right) filesRoot), disk)
  | writeManifest slug json => replaceManifest disk slug json

end DiskCall

/-- A transaction is known by the statements it has run; only its commit shows. -/
inductive Operation where
  | statement (statement : Statement)
  | begin
  | inside (log : List Statement) (statement : Statement)
  | commit (log : List Statement)
  | newUpload
  | disk (call : DiskCall)
  deriving DecidableEq, Repr

namespace Operation

@[reducible] def Result : Operation → Type
  | statement query => Except DatabaseError query.Reply
  | begin => Except DatabaseError Unit
  | inside _ query => Except DatabaseError query.Reply
  | commit _ => Except DatabaseError Unit
  | newUpload => Nat
  | disk call => Except IoError call.Answer

def fault : (operation : Operation) → Option operation.Result
  | statement _ => some (.error .connection)
  | begin => some (.error .connection)
  | inside .. => some (.error .connection)
  | commit _ => some (.error .connection)
  | newUpload => none
  | disk _ => some (.error .device)

end Operation

structure Service where
  database : Database
  disk : Builds
  uploads : Nat

namespace Service

def boot (database : Database) (disk : Builds) : Service where
  database := database
  disk := disk
  uploads := 0

def perform (service : Service) : (operation : Operation) → operation.Result × Service
  | .statement statement =>
      match statement.execute service.database with
      | .ok (reply, database) => (.ok reply, { service with database })
      | .error error => (.error error, service)
  | .begin => (.ok (), service)
  | .inside log statement =>
      ((replay service.database log).bind fun seen =>
        (statement.execute seen).map fun executed => executed.1, service)
  | .commit log =>
      match replay service.database log with
      | .ok database => (.ok (), { service with database })
      | .error error => (.error error, service)
  | .newUpload => (service.uploads, { service with uploads := service.uploads + 1 })
  | .disk call =>
      let (answer, disk) := call.perform service.disk
      (answer, { service with disk })

end Service

@[reducible] def registry : Interface where
  State := Service
  Operation := Operation
  Result := Operation.Result
  ready := fun _ _ => true
  perform := Service.perform
  fault := Operation.fault

/-! ## How an operation can go -/

section Occurs

variable {before after : Service}

theorem occurs_statement {statement : Statement}
    {result : (Operation.statement statement).Result}
    (occurs : registry.Occurs before (.statement statement) result after) :
    (∃ reply database, result = .ok reply ∧
      statement.execute before.database = .ok (reply, database) ∧
      after = { before with database }) ∨
    ∃ error, result = .error error ∧ after = before := by
  rcases occurs with ⟨-, performed⟩ | ⟨fault, rfl⟩
  · simp only [Service.perform] at performed
    split at performed
    · rename_i reply database executed
      cases performed
      exact .inl ⟨reply, database, rfl, executed, rfl⟩
    · rename_i error refused
      cases performed
      exact .inr ⟨error, rfl, rfl⟩
  · cases fault
    exact .inr ⟨_, rfl, rfl⟩

theorem occurs_begin {result : Operation.begin.Result}
    (occurs : registry.Occurs before .begin result after) : after = before := by
  rcases occurs with ⟨-, performed⟩ | ⟨fault, rfl⟩
  · cases performed
    rfl
  · rfl

theorem occurs_inside {log : List Statement} {statement : Statement}
    {result : (Operation.inside log statement).Result}
    (occurs : registry.Occurs before (.inside log statement) result after) :
    after = before ∧ ((∃ error, result = .error error) ∨
      ∃ seen reply database, result = .ok reply ∧ replay before.database log = .ok seen ∧
        statement.execute seen = .ok (reply, database)) := by
  rcases occurs with ⟨-, performed⟩ | ⟨fault, rfl⟩
  · obtain ⟨rfl, rfl⟩ := Prod.mk.inj performed
    refine ⟨rfl, ?_⟩
    cases replayed : replay before.database log with
    | error error => exact .inl ⟨error, rfl⟩
    | ok seen =>
        cases executed : statement.execute seen with
        | error error => exact .inl ⟨error, by simp [Except.bind, executed, Except.map]⟩
        | ok done =>
            exact .inr ⟨seen, done.1, done.2, by simp [Except.bind, executed, Except.map], rfl,
              executed⟩
  · cases fault
    exact ⟨rfl, .inl ⟨_, rfl⟩⟩

theorem occurs_commit {log : List Statement} {result : (Operation.commit log).Result}
    (occurs : registry.Occurs before (.commit log) result after) :
    (∃ database, result = .ok () ∧ replay before.database log = .ok database ∧
      after = { before with database }) ∨
    ∃ error, result = .error error ∧ after = before := by
  rcases occurs with ⟨-, performed⟩ | ⟨fault, rfl⟩
  · simp only [Service.perform] at performed
    split at performed
    · rename_i database replayed
      cases performed
      exact .inl ⟨database, rfl, replayed, rfl⟩
    · rename_i error refused
      cases performed
      exact .inr ⟨error, rfl, rfl⟩
  · cases fault
    exact .inr ⟨_, rfl, rfl⟩

theorem occurs_newUpload {result : Operation.newUpload.Result}
    (occurs : registry.Occurs before .newUpload result after) :
    result = before.uploads ∧ after = { before with uploads := before.uploads + 1 } := by
  rcases occurs with ⟨-, performed⟩ | ⟨fault, -⟩
  · cases performed
    exact ⟨rfl, rfl⟩
  · cases fault

theorem occurs_disk {call : DiskCall} {result : (Operation.disk call).Result}
    (occurs : registry.Occurs before (.disk call) result after) :
    (result = (call.perform before.disk).1 ∧
      after = { before with disk := (call.perform before.disk).2 }) ∨
    result = .error .device ∧ after = before := by
  rcases occurs with ⟨-, performed⟩ | ⟨fault, rfl⟩
  · cases performed
    exact .inl ⟨rfl, rfl⟩
  · cases fault
    exact .inr ⟨rfl, rfl⟩

end Occurs

/-! ## Handlers -/

abbrev Handler (Reply : Type) := Fallible registry AppError Reply

def operate (operation : Operation) : Handler operation.Result :=
  @Fallible.operate registry AppError operation

/-- `.await?` on a statement. -/
def query (statement : Statement) : Handler statement.Reply := do
  match ← operate (.statement statement) with
  | .ok reply => pure reply
  | .error error => throw (.database error)

def begin : Handler Unit := do
  match ← operate .begin with
  | .ok () => pure ()
  | .error error => throw (.database error)

def inside (log : List Statement) (statement : Statement) : Handler statement.Reply := do
  match ← operate (.inside log statement) with
  | .ok reply => pure reply
  | .error error => throw (.database error)

def commit (log : List Statement) : Handler Unit := do
  match ← operate (.commit log) with
  | .ok () => pure ()
  | .error error => throw (.database error)

def attempt (call : DiskCall) : Handler (Except IoError call.Answer) := operate (.disk call)

/-- `.map_err(|e| AppError::Internal(anyhow!("{context}: {e}")))?`. -/
def io (call : DiskCall) (context : String) : Handler call.Answer := do
  match ← attempt call with
  | .ok answer => pure answer
  | .error error => throw (.internal (context ++ ": " ++ error.text))

/-- `path_exists`: an error reads as absent. -/
def pathExists (path : List String) : Handler Bool := do
  match ← attempt (.tryExists path) with
  | .ok present => pure present
  | .error _ => pure false

/-- The body's result, with nothing skipped after an error. -/
def observe {Reply : Type} (body : Handler Reply) : Handler (Except AppError Reply) :=
  ExceptT.mk (Except.ok <$> body.run : Process registry _)

section Rules

variable {logic : Logic registry} {onError : AppError → logic.Situation → Prop}
  {situation : logic.Situation}

@[simp] theorem meets_operate (operation : Operation)
    {onOk : operation.Result → logic.Situation → Prop} :
    @Fallible.Meets registry AppError (no_index operation.Result) (operate operation) logic
        onOk onError situation ↔
      logic.admits situation operation onOk := Iff.rfl

@[simp] theorem meets_query (statement : Statement)
    {onOk : statement.Reply → logic.Situation → Prop} :
    @Fallible.Meets registry AppError (no_index statement.Reply) (query statement) logic
        onOk onError situation ↔
      logic.admits situation (.statement statement) fun result following =>
        match result with
        | .ok reply => onOk reply following
        | .error error => onError (.database error) following := by
  rw [query, Fallible.meets_bind, meets_operate]
  refine iff_of_eq (congrArg _ ?_)
  funext result following
  cases result <;> rfl

@[simp] theorem meets_begin {onOk : Unit → logic.Situation → Prop} :
    @Fallible.Meets registry AppError Unit begin logic onOk onError situation ↔
      logic.admits situation Operation.begin fun result following =>
        match result with
        | .ok () => onOk () following
        | .error error => onError (.database error) following := by
  rw [begin, Fallible.meets_bind, meets_operate]
  refine iff_of_eq (congrArg _ ?_)
  funext result following
  cases result <;> rfl

@[simp] theorem meets_inside (log : List Statement) (statement : Statement)
    {onOk : statement.Reply → logic.Situation → Prop} :
    @Fallible.Meets registry AppError (no_index statement.Reply) (inside log statement) logic
        onOk onError situation ↔
      logic.admits situation (.inside log statement) fun result following =>
        match result with
        | .ok reply => onOk reply following
        | .error error => onError (.database error) following := by
  rw [inside, Fallible.meets_bind, meets_operate]
  refine iff_of_eq (congrArg _ ?_)
  funext result following
  cases result <;> rfl

@[simp] theorem meets_commit (log : List Statement) {onOk : Unit → logic.Situation → Prop} :
    @Fallible.Meets registry AppError Unit (commit log) logic onOk onError situation ↔
      logic.admits situation (.commit log) fun result following =>
        match result with
        | .ok () => onOk () following
        | .error error => onError (.database error) following := by
  rw [commit, Fallible.meets_bind, meets_operate]
  refine iff_of_eq (congrArg _ ?_)
  funext result following
  cases result <;> rfl

@[simp] theorem meets_attempt (call : DiskCall)
    {onOk : Except IoError call.Answer → logic.Situation → Prop} :
    @Fallible.Meets registry AppError (no_index (Except IoError call.Answer)) (attempt call)
        logic onOk onError situation ↔
      logic.admits situation (.disk call) onOk := Iff.rfl

@[simp] theorem meets_io (call : DiskCall) (context : String)
    {onOk : call.Answer → logic.Situation → Prop} :
    @Fallible.Meets registry AppError (no_index call.Answer) (io call context) logic onOk
        onError situation ↔
      logic.admits situation (.disk call) fun result following =>
        match result with
        | .ok answer => onOk answer following
        | .error error => onError (.internal (context ++ ": " ++ error.text)) following := by
  rw [io, Fallible.meets_bind, meets_attempt]
  refine iff_of_eq (congrArg _ ?_)
  funext result following
  cases result <;> rfl

@[simp] theorem meets_pathExists (path : List String) {onOk : Bool → logic.Situation → Prop} :
    @Fallible.Meets registry AppError Bool (pathExists path) logic onOk onError situation ↔
      logic.admits situation (.disk (.tryExists path)) fun result following =>
        match result with
        | .ok present => onOk present following
        | .error _ => onOk false following := by
  rw [pathExists, Fallible.meets_bind, meets_attempt]
  refine iff_of_eq (congrArg _ ?_)
  funext result following
  cases result <;> rfl

@[simp] theorem meets_observe {Reply : Type} (body : Handler Reply)
    {onOk : Except AppError Reply → logic.Situation → Prop} :
    @Fallible.Meets registry AppError (Except AppError Reply) (observe body) logic onOk onError
        situation ↔
      body.Meets logic (fun reply => onOk (.ok reply)) (fun error => onOk (.error error))
        situation := by
  have whole : (observe body).run = body.run.bind fun outcome => .done (.ok outcome) := rfl
  unfold Fallible.Meets
  rw [whole, Process.meets_bind]
  refine iff_of_eq ?_
  congr 1
  funext outcome following
  cases outcome <;> rfl

end Rules

/-- What is configured, the libraries that are not part of the repository (the hash, the
printer of JSON and the reader of archives), and the times that the file system gives. -/
structure AppState (Slot : Type) where
  publicPrefix : String
  sha256 : Bytes → String
  toJson : Manifest → Bytes
  openZip : Bytes → Except String (List Slot)
  databaseText : DatabaseError → String
  modifiedTime : List String → Option Timestamp

end Loontail.Bundles
