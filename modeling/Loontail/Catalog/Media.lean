import Loontail.Bundles.Admin
import Loontail.Catalog.Schema
import Loontail.Relational.ReadCommitted

/-! # The media of the catalog

An image is sniffed, written under a name that is fresh for every upload, and given a row.
A role that has a single slot loses the row it had before, and the file of that row. -/

namespace Loontail.Catalog

open Concurrency Disk Relational Text
open Bundles (DiskCall Field Multipart segments withoutLeading)

/-! ## Images -/

structure ImageKind where
  ext : String
  mime : String
  deriving DecidableEq, Repr

/-- By the first bytes. -/
def sniffImage (bytes : Bytes) : Option ImageKind :=
  if [0x89, 0x50, 0x4E, 0x47].isPrefixOf bytes then some ⟨"png", "image/png"⟩
  else if [0xFF, 0xD8, 0xFF].isPrefixOf bytes then some ⟨"jpg", "image/jpeg"⟩
  else if 12 ≤ bytes.length && bytes.take 4 = [0x52, 0x49, 0x46, 0x46] &&
      (bytes.drop 8).take 4 = [0x57, 0x45, 0x42, 0x50] then some ⟨"webp", "image/webp"⟩
  else if [0x47, 0x49, 0x46, 0x38].isPrefixOf bytes then some ⟨"gif", "image/gif"⟩
  else none

def readU32Be (bytes : Bytes) (offset : Nat) : Nat :=
  ((bytes.drop offset).take 4).foldl (fun value byte => value * 256 + byte.toNat) 0

inductive PngError where
  | tooSmall
  | badSignature
  | badIhdrLength (length : Nat)
  | badIhdrType
  deriving DecidableEq, Repr

def parsePngHeader (bytes : Bytes) : Except PngError (Nat × Nat) :=
  if bytes.length < 24 then .error .tooSmall
  else if bytes.take 8 ≠ [0x89, 0x50, 0x4E, 0x47, 0x0D, 0x0A, 0x1A, 0x0A] then
    .error .badSignature
  else if readU32Be bytes 8 ≠ 13 then .error (.badIhdrLength (readU32Be bytes 8))
  else if (bytes.drop 12).take 4 ≠ [0x49, 0x48, 0x44, 0x52] then .error .badIhdrType
  else .ok (readU32Be bytes 16, readU32Be bytes 20)

/-- `value as i32`. -/
def asI32 (value : Nat) : Int := (BitVec.ofNat 32 value).toInt

def pngDimensions (bytes : Bytes) : Option Int × Option Int :=
  match parsePngHeader bytes with
  | .ok (width, height) => (some (asI32 width), some (asI32 height))
  | .error _ => (none, none)

/-! ## Roles -/

def MediaRole.name : MediaRole → String
  | poster => "poster"
  | background => "background"
  | titleImage => "titleImage"
  | screenshot => "screenshot"

def mediaRoles : List MediaRole := [.poster, .background, .titleImage, .screenshot]

def singularRoles : List MediaRole := [.poster, .background, .titleImage]

def MediaRole.parse (text : String) : Option MediaRole :=
  mediaRoles.find? fun role => role.name = text

/-! ## The body of an upload -/

def maxMediaUploadBytes : Nat := 32 * 1024 * 1024

def readChunks (maxBytes : Nat) (gathered : Bytes) : List Bytes → Except AppError Bytes
  | [] => .ok gathered
  | chunk :: rest =>
      if maxBytes < gathered.length + chunk.length then
        .error (.badRequest ("file is too large (max " ++ toString maxBytes ++ " bytes)"))
      else readChunks maxBytes (gathered ++ chunk) rest

def readFile (maxBytes : Nat) (field : Field) : Except AppError Bytes :=
  match readChunks maxBytes [] field.chunks, field.failure with
  | .error error, _ => .error error
  | .ok _, some failure => .error (.badRequest ("reading file: " ++ failure))
  | .ok bytes, none => .ok bytes

def readFields (maxBytes : Nat) (textField : String) (file : Option Bytes)
    (text : Option String) : List Field → Except AppError (Option Bytes × Option String)
  | [] => .ok (file, text)
  | field :: rest =>
      if field.name = some "file" then
        match readFile maxBytes field with
        | .ok bytes => readFields maxBytes textField (some bytes) text rest
        | .error error => .error error
      else if field.name = some textField then
        match field.text with
        | .ok value =>
            readFields maxBytes textField file (if trim value = "" then text else some (trim value))
              rest
        | .error failure => .error (.badRequest ("reading " ++ textField ++ ": " ++ failure))
      else readFields maxBytes textField file text rest

def readCappedUpload (multipart : Multipart) (maxBytes : Nat) (textField : String) :
    Except AppError (Option Bytes × Option String) :=
  match readFields maxBytes textField none none multipart.fields, multipart.failure with
  | .error error, _ => .error error
  | .ok _, some failure => .error (.badRequest ("malformed multipart: " ++ failure))
  | .ok parts, none => .ok parts

section Capped

variable {maxBytes : Nat}

theorem readChunks_ok_iff {gathered bytes : Bytes} {chunks : List Bytes}
    (fits : gathered.length ≤ maxBytes) :
    readChunks maxBytes gathered chunks = .ok bytes ↔
      bytes = gathered ++ chunks.flatten ∧ bytes.length ≤ maxBytes := by
  induction chunks generalizing gathered with
  | nil =>
      rw [readChunks, List.flatten_nil, List.append_nil]
      constructor
      · intro same
        cases same
        exact ⟨rfl, fits⟩
      · rintro ⟨rfl, -⟩
        rfl
  | cons chunk rest induction =>
      rw [readChunks, List.flatten_cons, ← List.append_assoc]
      split
      · rename_i long
        constructor
        · intro same
          cases same
        · rintro ⟨rfl, short⟩
          simp only [List.length_append] at short
          omega
      · rename_i short
        exact induction (by rw [List.length_append]; omega)

theorem readFile_ok_iff {field : Field} {bytes : Bytes} :
    readFile maxBytes field = .ok bytes ↔
      field.failure = none ∧ bytes = field.chunks.flatten ∧ bytes.length ≤ maxBytes := by
  have chunks := @readChunks_ok_iff maxBytes [] bytes field.chunks (Nat.zero_le _)
  rw [List.nil_append] at chunks
  unfold readFile
  rw [← chunks]
  cases readChunks maxBytes [] field.chunks <;> cases field.failure <;> simp

theorem readFields_le {textField : String} {file : Option Bytes} {text : Option String}
    {fields : List Field} {found : Bytes} {value : Option String}
    (fits : ∀ bytes, file = some bytes → bytes.length ≤ maxBytes)
    (read : readFields maxBytes textField file text fields = .ok (some found, value)) :
    found.length ≤ maxBytes := by
  induction fields generalizing file text with
  | nil =>
      cases read
      exact fits found rfl
  | cons field rest induction =>
      unfold readFields at read
      split at read
      · split at read
        · rename_i bytes whole
          apply induction _ read
          rintro _ ⟨⟩
          exact (readFile_ok_iff.mp whole).2.2
        · cases read
      · split at read
        · split at read
          · exact induction fits read
          · cases read
        · exact induction fits read

theorem readCappedUpload_le {multipart : Multipart} {textField : String} {found : Bytes}
    {value : Option String}
    (read : readCappedUpload multipart maxBytes textField = .ok (some found, value)) :
    found.length ≤ maxBytes := by
  unfold readCappedUpload at read
  split at read
  · cases read
  · cases read
  · rename_i parts fields _
    cases read
    exact readFields_le (fun _ none => by cases none) fields

end Capped

/-! ## Files and their links -/

def mediaFileName (role : MediaRole) (revision ext : String) : String :=
  role.name ++ "-" ++ revision ++ "." ++ ext

def diskPath (storageRoot : List String) (clientHex : String) (role : MediaRole)
    (revision ext : String) : List String :=
  storageRoot ++ [clientHex, mediaFileName role revision ext]

def publicUrl (clientHex : String) (role : MediaRole) (revision ext : String) : String :=
  "/catalog-media/" ++ clientHex ++ "/" ++ mediaFileName role revision ext

/-- The components of a path. One that ends with a slash or a dot names no file. -/
def pathParts (path : String) : List String :=
  (segments path).filter (fun part => part ≠ "" && part ≠ ".") ++
    if (segments path).getLast? ∈ [some "", some "."] then [""] else []

/-- `None` for a link to elsewhere. An absolute path takes the place of the root. -/
def urlToDiskPath (storageRoot : List String) (url : String) : Option (List String) :=
  match withoutLeading "/catalog-media/" url with
  | none => none
  | some rel =>
      if rel = "" || decide (['.', '.'] <:+: rel.toList) then none
      else if rel.toList.head? = some '/' then some (pathParts rel)
      else some (storageRoot ++ pathParts rel)

/-! ## The rows and the disk -/

structure StoredMedia extends CatalogMedia where
  ext : Option String
  mime : Option String
  size : Option Int
  deriving DecidableEq, Repr

abbrev mediaKey (row : StoredMedia) : Uuid := row.id

inductive MediaFilter where
  | ofRole (clientId : Uuid) (role : MediaRole)
  | ofId (id clientId : Uuid)
  deriving DecidableEq, Repr

def MediaFilter.matches : MediaFilter → StoredMedia → Bool
  | ofRole clientId role, row => row.clientId = clientId && row.role = role
  | ofId id clientId, row => row.id = id && row.clientId = clientId

structure NewMedia where
  clientId : Uuid
  role : MediaRole
  url : String
  ext : String
  mime : String
  width : Option Int
  height : Option Int
  size : Int
  deriving DecidableEq, Repr

def NewMedia.row (media : NewMedia) (id : Uuid) (now : Timestamp) : StoredMedia where
  id := id
  clientId := media.clientId
  role := media.role
  url := media.url
  width := media.width
  height := media.height
  sortOrder := 0
  createdAt := now
  ext := some media.ext
  mime := some media.mime
  size := some media.size

/-- A deletion looks for its rows first and then takes them one by one. -/
inductive MediaStatement where
  | clientExists (id : Uuid)
  | begin
  | look (transaction : Nat) (rows : MediaFilter)
  | take (transaction : Nat) (id : Uuid)
  | insert (transaction : Nat) (media : NewMedia) (now : Timestamp)
  | commit (transaction : Nat)
  deriving DecidableEq, Repr

structure MediaService where
  clients : Table clientLayout
  media : ReadCommitted StoredMedia Uuid
  disk : Tree String Bytes
  drawn : Nat

namespace MediaStatement

@[reducible] def Reply : MediaStatement → Type
  | clientExists _ => Bool
  | begin => Nat
  | look .. => List Uuid
  | take .. => Option String
  | insert .. => Uuid
  | commit _ => Unit

def execute (service : MediaService) :
    (statement : MediaStatement) → Except DatabaseError statement.Reply × MediaService
  | clientExists id => (.ok (service.clients.find id).isSome, service)
  | begin => (.ok service.media.begin.1, { service with media := service.media.begin.2 })
  | look transaction rows =>
      (.ok (service.media.look mediaKey transaction rows.matches), service)
  | take transaction id =>
      let (row, media) := service.media.take mediaKey transaction id
      (.ok (row.map (·.url)), { service with media })
  | insert transaction media now =>
      if (service.clients.find media.clientId).isSome then
        (.ok service.drawn,
          { service with
            media := service.media.insert transaction (media.row service.drawn now)
            drawn := service.drawn + 1 })
      else (.error .foreignKeyViolation, service)
  | commit transaction =>
      (.ok (), { service with media := service.media.commit mediaKey transaction })

end MediaStatement

inductive MediaOperation where
  | statement (statement : MediaStatement)
  | rollback (transaction : Nat)
  | disk (call : DiskCall)
  deriving DecidableEq, Repr

namespace MediaOperation

@[reducible] def Result : MediaOperation → Type
  | statement asked => Except DatabaseError asked.Reply
  | rollback _ => Unit
  | disk call => Except IoError call.Answer

/-- A row that another transaction has removed is waited for. -/
def ready (service : MediaService) : MediaOperation → Bool
  | statement (.take transaction id) => !service.media.locked transaction id
  | _ => true

def perform (service : MediaService) : (operation : MediaOperation) → operation.Result × MediaService
  | statement asked => asked.execute service
  | rollback transaction => ((), { service with media := service.media.rollback transaction })
  | disk call =>
      let performed := call.perform service.disk
      (performed.1, { service with disk := performed.2 })

/-- A transaction whose connection is lost is rolled back all the same. -/
def fault : (operation : MediaOperation) → Option operation.Result
  | statement _ => some (.error .connection)
  | rollback _ => none
  | disk _ => some (.error .device)

end MediaOperation

@[reducible] def mediaStore : Interface where
  State := MediaService
  Operation := MediaOperation
  Result := MediaOperation.Result
  ready := MediaOperation.ready
  perform := MediaOperation.perform
  fault := MediaOperation.fault

/-! ## Handlers -/

abbrev MediaHandler (Reply : Type) := Fallible mediaStore AppError Reply

/-- `.await?` on a statement. -/
def ask (statement : MediaStatement) : MediaHandler statement.Reply := do
  match ← @Fallible.operate mediaStore AppError (.statement statement) with
  | .ok reply => pure reply
  | .error error => throw (.database error)

def onDisk (call : DiskCall) : MediaHandler (Except IoError call.Answer) :=
  @Fallible.operate mediaStore AppError (.disk call)

def rollback (transaction : Nat) : MediaHandler Unit :=
  @Fallible.operate mediaStore AppError (.rollback transaction)

/-- A transaction that is dropped before its commit is rolled back. -/
def onTransaction {Reply : Type} (work : Nat → MediaHandler Reply) : MediaHandler Reply := do
  let transaction ← ask .begin
  ExceptT.mk do
    match ← (work transaction).run with
    | .ok reply => pure (.ok reply)
    | .error error =>
        let _ ← (rollback transaction).run
        pure (.error error)

def requireClient (clientId : Uuid) : MediaHandler Unit := do
  let present ← ask (.clientExists clientId)
  Fallible.refuse (!present) (.notFound "client not found")

def takeAll (transaction : Nat) : List Uuid → MediaHandler (List String)
  | [] => pure []
  | id :: rest => do
      let url ← ask (.take transaction id)
      let urls ← takeAll transaction rest
      pure (url.toList ++ urls)

/-- `DELETE FROM catalog_media WHERE … RETURNING url`. -/
def deleteReturning (transaction : Nat) (rows : MediaFilter) : MediaHandler (List String) := do
  let ids ← ask (.look transaction rows)
  takeAll transaction ids

def unlinkQuiet (path : List String) : MediaHandler Unit := do
  let _ ← onDisk (.removeFile path)

def unlinkUrl (storageRoot : List String) (url : String) : MediaHandler Unit :=
  match urlToDiskPath storageRoot url with
  | some path => unlinkQuiet path
  | none => pure ()

def unlinkUrls (storageRoot : List String) : List String → MediaHandler Unit
  | [] => pure ()
  | url :: rest => do
      unlinkUrl storageRoot url
      unlinkUrls storageRoot rest

def ioMedia (call : DiskCall) : MediaHandler call.Answer := do
  match ← onDisk call with
  | .ok answer => pure answer
  | .error error => throw (.internal ("write catalog media: " ++ error.text))

def writeFile (path : List String) (bytes : Bytes) : MediaHandler Unit := do
  ioMedia (.createDirAll path.dropLast)
  ioMedia (.create path)
  ioMedia (.append path bytes)

/-- The files of the rows that are replaced go before the row that replaces them comes. -/
def storeMedia (storageRoot : List String) (media : NewMedia) (now : Timestamp)
    (transaction : Nat) : MediaHandler Uuid := do
  if media.role ∈ singularRoles then
    let old ← deleteReturning transaction (.ofRole media.clientId media.role)
    unlinkUrls storageRoot old
  let id ← ask (.insert transaction media now)
  ask (.commit transaction)
  pure id

def readUpload (multipart : Multipart) : Except AppError (Bytes × MediaRole × ImageKind) :=
  match readCappedUpload multipart maxMediaUploadBytes "role" with
  | .error error => .error error
  | .ok (_, none) => .error (.badRequest "missing role field")
  | .ok (file, some text) =>
      match MediaRole.parse text, file with
      | none, _ => .error (.badRequest ("invalid media role '" ++ text ++ "'"))
      | some _, none => .error (.badRequest "missing file field")
      | some role, some file =>
          match sniffImage file with
          | none => .error (.badRequest "unsupported image type — use PNG, JPG, WebP, or GIF")
          | some kind => .ok (file, role, kind)

inductive MediaReply where
  | created (id : Uuid) (url : String)
  | noContent
  deriving DecidableEq, Repr

/-- `revision` is what `revision_hex` draws. -/
def uploadMedia (storageRoot : List String) (clientId : Uuid) (multipart : Multipart)
    (revision : String) (now : Timestamp) : MediaHandler MediaReply := do
  requireClient clientId
  let (file, role, kind) ← Fallible.lift (readUpload multipart)
  let (width, height) := pngDimensions file
  let url := publicUrl (idHex clientId) role revision kind.ext
  writeFile (diskPath storageRoot (idHex clientId) role revision kind.ext) file
  let media : NewMedia :=
    ⟨clientId, role, url, kind.ext, kind.mime, width, height, asI32 file.length⟩
  let id ← onTransaction (storeMedia storageRoot media now)
  pure (.created id url)

/-- A statement by itself is a transaction of its own. -/
def deleteMedia (storageRoot : List String) (clientId mediaId : Uuid) :
    MediaHandler MediaReply := do
  let urls ← onTransaction fun transaction => do
    let urls ← deleteReturning transaction (.ofId mediaId clientId)
    ask (.commit transaction)
    pure urls
  let url ← Fallible.okOr urls.head? (.notFound "media not found")
  unlinkUrl storageRoot url
  pure .noContent

inductive MediaRequest where
  | upload (clientId : Uuid) (multipart : Multipart) (revision : String) (now : Timestamp)
  | delete (clientId mediaId : Uuid)
  deriving DecidableEq, Repr

def MediaRequest.handler (storageRoot : List String) : MediaRequest → MediaHandler MediaReply
  | upload clientId multipart revision now =>
      uploadMedia storageRoot clientId multipart revision now
  | delete clientId mediaId => deleteMedia storageRoot clientId mediaId

def handleMedia (storageRoot : List String) (request : MediaRequest) :
    Process mediaStore (Except AppError MediaReply) :=
  (request.handler storageRoot).run

/-! ## How they are judged -/

section Rules

variable {logic : Logic mediaStore} {onError : AppError → logic.Situation → Prop}
  {situation : logic.Situation}

@[simp] theorem meets_ask (statement : MediaStatement)
    {onOk : statement.Reply → logic.Situation → Prop} :
    @Fallible.Meets mediaStore AppError (no_index statement.Reply) (ask statement) logic onOk
        onError situation ↔
      logic.admits situation (.statement statement) fun result following =>
        match result with
        | .ok reply => onOk reply following
        | .error error => onError (.database error) following := by
  rw [ask, Fallible.meets_bind, Fallible.meets_operate]
  refine iff_of_eq (congrArg _ ?_)
  funext result following
  cases result <;> rfl

@[simp] theorem meets_onDisk (call : DiskCall)
    {onOk : Except IoError call.Answer → logic.Situation → Prop} :
    @Fallible.Meets mediaStore AppError (no_index (Except IoError call.Answer)) (onDisk call) logic
        onOk onError situation ↔
      logic.admits situation (.disk call) onOk := Iff.rfl

@[simp] theorem meets_ioMedia (call : DiskCall) {onOk : call.Answer → logic.Situation → Prop} :
    @Fallible.Meets mediaStore AppError (no_index call.Answer) (ioMedia call) logic onOk onError
        situation ↔
      logic.admits situation (.disk call) fun result following =>
        match result with
        | .ok answer => onOk answer following
        | .error error =>
            onError (.internal ("write catalog media: " ++ error.text)) following := by
  rw [ioMedia, Fallible.meets_bind, meets_onDisk]
  refine iff_of_eq (congrArg _ ?_)
  funext result following
  cases result <;> rfl

/-- Whatever goes wrong on a transaction, it is rolled back. -/
theorem meets_onTransaction {Reply : Type} (work : Nat → MediaHandler Reply)
    {onOk : Reply → logic.Situation → Prop} :
    (onTransaction work).Meets logic onOk onError situation ↔
      logic.admits situation (.statement .begin) fun result following =>
        match result with
        | .ok transaction => (work transaction).Meets logic onOk
            (fun error last => logic.admits last (.rollback transaction)
              fun _ final => onError error final) following
        | .error error => onError (.database error) following := by
  rw [onTransaction, Fallible.meets_bind, meets_ask]
  refine iff_of_eq (congrArg _ ?_)
  funext result following
  cases result with
  | error error => rfl
  | ok transaction =>
      refine propext ((Process.meets_bind (work transaction).run _ following).trans
        (iff_of_eq ?_))
      unfold Fallible.Meets
      congr 1
      funext outcome last
      cases outcome <;> rfl

end Rules

/-! ## How an operation can go -/

section Occurs

variable {before after : MediaService}

theorem occurs_statement {statement : MediaStatement}
    {result : (MediaOperation.statement statement).Result}
    (occurs : mediaStore.Occurs before (.statement statement) result after) :
    statement.execute before = (result, after) ∨ result = .error .connection ∧ after = before := by
  rcases occurs with ⟨-, performed⟩ | ⟨fault, rfl⟩
  · exact .inl performed
  · cases fault
    exact .inr ⟨rfl, rfl⟩

theorem occurs_rollback {transaction : Nat} {result : (MediaOperation.rollback transaction).Result}
    (occurs : mediaStore.Occurs before (.rollback transaction) result after) :
    after = { before with media := before.media.rollback transaction } := by
  rcases occurs with ⟨-, performed⟩ | ⟨fault, -⟩
  · cases performed
    rfl
  · cases fault

theorem occurs_disk {call : DiskCall} {result : (MediaOperation.disk call).Result}
    (occurs : mediaStore.Occurs before (.disk call) result after) :
    (result = (call.perform before.disk).1 ∧
      after = { before with disk := (call.perform before.disk).2 }) ∨
    result = .error .device ∧ after = before := by
  rcases occurs with ⟨-, performed⟩ | ⟨fault, rfl⟩
  · cases performed
    exact .inl ⟨rfl, rfl⟩
  · cases fault
    exact .inr ⟨rfl, rfl⟩

end Occurs

end Loontail.Catalog
