import Loontail.Catalog.Media
import Loontail.Encoding.BigEndian
import Loontail.Relational.Table
import Loontail.Textures.Schema

/-! # The files and rows of textures

An upload writes its file under a fresh name, stores a row and unlinks the file of the row that
stood there before. Each statement is a transaction of its own. -/

namespace Loontail.Textures

open Concurrency Disk Relational
open Bundles (DiskCall Multipart)
open Catalog (PngError asI32 parsePngHeader readCappedUpload)

/-! ## Images -/

inductive TextureError where
  | header (error : PngError)
  | badDimensions (width height : Nat)
  deriving DecidableEq, Repr

def TextureError.text : TextureError → String
  | header .tooSmall => "file too small to be a PNG (need at least 24 bytes)"
  | header .badSignature => "file is not a PNG (bad signature)"
  | header (.badIhdrLength length) => "IHDR chunk length is " ++ toString length ++ ", expected 13"
  | header .badIhdrType => "first PNG chunk is not \"IHDR\""
  | badDimensions width height =>
      "unsupported dimensions " ++ toString width ++ "x" ++ toString height

def TextureKind.admits : TextureKind → Nat → Nat → Bool
  | skin, width, height => width = 64 && (height = 64 || height = 32)
  | cape, width, height => width = 64 && height = 32

def validatePng (kind : TextureKind) (bytes : Bytes) : Except TextureError (Nat × Nat) :=
  match parsePngHeader bytes with
  | .error error => .error (.header error)
  | .ok (width, height) =>
      if kind.admits width height then .ok (width, height) else .error (.badDimensions width height)

/-! ## What is an image

The header of a file is looked at and nothing behind it. -/

def pngSignature : Bytes := [0x89, 0x50, 0x4E, 0x47, 0x0D, 0x0A, 0x1A, 0x0A]

/-- The signature, and the start of the first chunk: its length, its type and the dimensions. -/
def pngHeader (width height : Nat) : Bytes :=
  pngSignature ++ (BigEndian.encode 4 13 ++ ([0x49, 0x48, 0x44, 0x52] ++
    (BigEndian.encode 4 width ++ BigEndian.encode 4 height)))

section Images

variable {bytes : Bytes} {width height : Nat} {kind : TextureKind}

def field (offset size : Nat) (bytes : Bytes) : Bytes := (bytes.drop offset).take size

theorem readU32Be_eq (offset : Nat) :
    Catalog.readU32Be bytes offset = BigEndian.decode (field offset 4 bytes) := rfl

theorem length_field {offset size : Nat} (inside : offset + size ≤ bytes.length) :
    (field offset size bytes).length = size := by
  rw [field, List.length_take, List.length_drop]
  omega

theorem fields_append (bytes : Bytes) :
    field 0 8 bytes ++ (field 8 4 bytes ++ (field 12 4 bytes ++ (field 16 4 bytes ++
      (field 20 4 bytes ++ bytes.drop 24)))) = bytes := by
  have next : ∀ offset size, field offset size bytes ++ bytes.drop (offset + size) =
      bytes.drop offset := by
    intro offset size
    rw [field, ← List.drop_drop]
    exact List.take_append_drop size (bytes.drop offset)
  rw [next 20 4, next 16 4, next 12 4, next 8 4, next 0 8, List.drop_zero]

theorem readU32Be_iff {offset value : Nat} (inside : offset + 4 ≤ bytes.length)
    (fits : value < 256 ^ 4) :
    Catalog.readU32Be bytes offset = value ↔ field offset 4 bytes = BigEndian.encode 4 value := by
  have width := @length_field bytes offset 4 inside
  rw [← BigEndian.decode_inj (width.trans (BigEndian.length_encode fits).symm),
    BigEndian.decode_encode]
  exact Iff.rfl

theorem readU32Be_lt {offset : Nat} (inside : offset + 4 ≤ bytes.length) :
    Catalog.readU32Be bytes offset < 256 ^ 4 := by
  have small := BigEndian.decode_lt (field offset 4 bytes)
  rw [length_field inside] at small
  exact small

theorem pngHeader_starts (wide : width < 256 ^ 4) (high : height < 256 ^ 4) :
    pngHeader width height <+: bytes ↔ 24 ≤ bytes.length ∧ field 0 8 bytes = pngSignature ∧
      field 8 4 bytes = BigEndian.encode 4 13 ∧ field 12 4 bytes = [0x49, 0x48, 0x44, 0x52] ∧
      field 16 4 bytes = BigEndian.encode 4 width ∧
      field 20 4 bytes = BigEndian.encode 4 height := by
  have small : 13 < 256 ^ 4 := by decide
  have total : (pngHeader width height).length = 24 := by
    simp only [pngHeader, pngSignature, List.length_append, List.length_cons, List.length_nil,
      BigEndian.length_encode wide, BigEndian.length_encode high, BigEndian.length_encode small]
  constructor
  · rintro ⟨rest, whole⟩
    have long : 24 ≤ bytes.length := by
      rw [← whole, List.length_append, total]
      omega
    have parts := (fields_append bytes).trans whole.symm
    simp only [pngHeader, List.append_assoc] at parts
    obtain ⟨signature, parts⟩ := List.append_inj parts (length_field (by omega))
    obtain ⟨length, parts⟩ := List.append_inj parts
      ((length_field (by omega)).trans (BigEndian.length_encode small).symm)
    obtain ⟨type, parts⟩ := List.append_inj parts (length_field (by omega))
    obtain ⟨first, parts⟩ := List.append_inj parts
      ((length_field (by omega)).trans (BigEndian.length_encode wide).symm)
    obtain ⟨second, parts⟩ := List.append_inj parts
      ((length_field (by omega)).trans (BigEndian.length_encode high).symm)
    exact ⟨long, signature, length, type, first, second⟩
  · rintro ⟨-, signature, length, type, first, second⟩
    refine ⟨bytes.drop 24, ?_⟩
    rw [pngHeader, ← signature, ← length, ← type, ← first, ← second]
    simp only [List.append_assoc]
    exact fields_append bytes

theorem parsePngHeader_fields (bytes : Bytes) : parsePngHeader bytes =
    if bytes.length < 24 then .error .tooSmall
    else if field 0 8 bytes ≠ pngSignature then .error .badSignature
    else if Catalog.readU32Be bytes 8 ≠ 13 then
      .error (.badIhdrLength (Catalog.readU32Be bytes 8))
    else if field 12 4 bytes ≠ [0x49, 0x48, 0x44, 0x52] then .error .badIhdrType
    else .ok (Catalog.readU32Be bytes 16, Catalog.readU32Be bytes 20) := rfl

theorem parsePngHeader_ok : parsePngHeader bytes = .ok (width, height) ↔
    width < 256 ^ 4 ∧ height < 256 ^ 4 ∧ pngHeader width height <+: bytes := by
  have small : 13 < 256 ^ 4 := by decide
  constructor
  · intro parsed
    rw [parsePngHeader_fields] at parsed
    split_ifs at parsed with short signature length type
    cases parsed
    have long : 24 ≤ bytes.length := by omega
    have wide := @readU32Be_lt bytes 16 (by omega)
    have high := @readU32Be_lt bytes 20 (by omega)
    refine ⟨wide, high, (pngHeader_starts wide high).mpr ⟨long, ?_, ?_, ?_, ?_, ?_⟩⟩
    · exact not_not.mp signature
    · exact (readU32Be_iff (by omega) small).mp (not_not.mp length)
    · exact not_not.mp type
    · exact (readU32Be_iff (by omega) wide).mp rfl
    · exact (readU32Be_iff (by omega) high).mp rfl
  · rintro ⟨wide, high, starts⟩
    obtain ⟨long, signature, length, type, first, second⟩ := (pngHeader_starts wide high).mp starts
    have length := (readU32Be_iff (by omega) small).mpr length
    rw [parsePngHeader_fields, if_neg (by omega), if_neg (not_not.mpr signature), if_neg (not_not.mpr length),
      if_neg (not_not.mpr type), (readU32Be_iff (by omega) wide).mpr first,
      (readU32Be_iff (by omega) high).mpr second]

/-! ### One byte changed -/

section Changed

variable {index offset size : Nat} {other : UInt8}

theorem field_set_apart (apart : index < offset ∨ offset + size ≤ index) :
    field offset size (bytes.set index other) = field offset size bytes := by
  refine List.ext_getElem? fun place => ?_
  simp only [field, List.getElem?_take, List.getElem?_drop]
  by_cases inside : place < size
  · rw [if_pos inside, if_pos inside, List.getElem?_set_ne (by omega)]
  · rw [if_neg inside, if_neg inside]

theorem field_set_within (changed : bytes[index]? ≠ some other) (early : offset ≤ index)
    (late : index < offset + size) (inside : index < bytes.length) :
    field offset size (bytes.set index other) ≠ field offset size bytes := by
  intro same
  have here := congrArg (fun field : Bytes => field[index - offset]?) same
  simp only [field, List.getElem?_take, List.getElem?_drop] at here
  rw [if_pos (by omega), if_pos (by omega), Nat.add_sub_cancel' early,
    List.getElem?_set_self inside] at here
  exact changed here.symm

theorem readU32Be_set_apart (apart : index < offset ∨ offset + 4 ≤ index) :
    Catalog.readU32Be (bytes.set index other) offset = Catalog.readU32Be bytes offset := by
  rw [readU32Be_eq, readU32Be_eq, field_set_apart apart]

theorem readU32Be_set_within (changed : bytes[index]? ≠ some other) (early : offset ≤ index)
    (late : index < offset + 4) (inside : offset + 4 ≤ bytes.length) :
    Catalog.readU32Be (bytes.set index other) offset ≠ Catalog.readU32Be bytes offset := by
  intro same
  rw [readU32Be_eq, readU32Be_eq, BigEndian.decode_inj] at same
  · exact field_set_within changed early late (by omega) same
  · rw [length_field (by rwa [List.length_set]), length_field inside]

end Changed

theorem admits_small (admits : kind.admits width height = true) :
    width < 256 ^ 4 ∧ height < 256 ^ 4 := by
  cases kind with
  | skin =>
      simp only [TextureKind.admits, Bool.and_eq_true, Bool.or_eq_true, decide_eq_true_eq] at admits
      omega
  | cape =>
      simp only [TextureKind.admits, Bool.and_eq_true, decide_eq_true_eq] at admits
      omega

theorem validatePng_ok : validatePng kind bytes = .ok (width, height) ↔
    kind.admits width height = true ∧ parsePngHeader bytes = .ok (width, height) := by
  unfold validatePng
  cases parsed : parsePngHeader bytes with
  | error error => simp
  | ok size =>
      obtain ⟨wide, high⟩ := size
      simp only [Except.ok.injEq]
      constructor
      · intro accepted
        split at accepted
        · rename_i admits
          cases accepted
          exact ⟨admits, rfl⟩
        · cases accepted
      · rintro ⟨admits, same⟩
        cases same
        rw [if_pos admits]

/-- A file is taken exactly where it starts with the header of dimensions that its kind admits. A
byte of the signature, the length or the type that is changed is told as what it is; one of the
dimensions leads to others; one behind them changes nothing. -/
theorem validatePng_exact (kind : TextureKind) (bytes : Bytes) (width height : Nat) :
    (validatePng kind bytes = .ok (width, height) ↔
      kind.admits width height = true ∧ pngHeader width height <+: bytes) ∧
    (validatePng kind bytes = .ok (width, height) → ∀ index other, index < bytes.length →
      bytes[index]? ≠ some other →
        let result := validatePng kind (bytes.set index other)
        (index < 8 → result = .error (.header .badSignature)) ∧
        (8 ≤ index → index < 12 →
          ∃ length, length ≠ 13 ∧ result = .error (.header (.badIhdrLength length))) ∧
        (12 ≤ index → index < 16 → result = .error (.header .badIhdrType)) ∧
        (16 ≤ index → index < 24 → ∃ wide high, (wide, high) ≠ (width, height) ∧ result =
          if kind.admits wide high then .ok (wide, high) else .error (.badDimensions wide high)) ∧
        (24 ≤ index → result = .ok (width, height))) := by
  constructor
  · rw [validatePng_ok, parsePngHeader_ok]
    exact and_congr_right fun admits => ⟨fun parsed => parsed.2.2,
      fun starts => ⟨(admits_small admits).1, (admits_small admits).2, starts⟩⟩
  · intro accepted index other inside changed result
    obtain ⟨admits, parsed⟩ := validatePng_ok.mp accepted
    obtain ⟨wide, high, starts⟩ := parsePngHeader_ok.mp parsed
    obtain ⟨long, signature, length, type, first, second⟩ := (pngHeader_starts wide high).mp starts
    have thirteen := (readU32Be_iff (by omega) (by decide : 13 < 256 ^ 4)).mpr length
    have sized : ¬(bytes.set index other).length < 24 := by
      rw [List.length_set]
      omega
    have told : ∀ {error}, parsePngHeader (bytes.set index other) = .error error →
        result = .error (.header error) := by
      intro error known
      change validatePng kind (bytes.set index other) = _
      unfold validatePng
      rw [known]
    have fields := parsePngHeader_fields (bytes.set index other)
    rw [if_neg sized] at fields
    refine ⟨fun early => ?_, fun early late => ?_, fun early late => ?_, fun early late => ?_,
      fun early => ?_⟩
    · apply told
      rw [fields, if_pos]
      rw [← signature]
      exact field_set_within changed (Nat.zero_le index) (by omega) inside
    · have length := @readU32Be_set_within bytes index 8 other changed early late (by omega)
      rw [thirteen] at length
      refine ⟨_, length, told ?_⟩
      rw [fields, field_set_apart (by omega), if_neg (not_not.mpr signature), if_pos length]
    · apply told
      rw [fields, field_set_apart (by omega), if_neg (not_not.mpr signature),
        readU32Be_set_apart (by omega), if_neg (not_not.mpr thirteen), if_pos]
      rw [← type]
      exact field_set_within changed early (by omega) inside
    · refine ⟨Catalog.readU32Be (bytes.set index other) 16,
        Catalog.readU32Be (bytes.set index other) 20, ?_, ?_⟩
      · have first := (readU32Be_iff (by omega) wide).mpr first
        have second := (readU32Be_iff (by omega) high).mpr second
        rw [← first, ← second]
        intro same
        obtain ⟨across, down⟩ := Prod.mk.inj same
        by_cases left : index < 20
        · exact readU32Be_set_within changed early (by omega) (by omega) across
        · exact readU32Be_set_within changed (by omega) (by omega) (by omega) down
      · change validatePng kind (bytes.set index other) = _
        unfold validatePng
        rw [fields, field_set_apart (by omega), if_neg (not_not.mpr signature),
          readU32Be_set_apart (by omega), if_neg (not_not.mpr thirteen), field_set_apart (by omega),
          if_neg (not_not.mpr type)]
    · refine validatePng_ok.mpr ⟨admits, ?_⟩
      rw [← parsed, parsePngHeader_fields bytes, if_neg (by omega), fields]
      rw [field_set_apart (by omega), readU32Be_set_apart (by omega), field_set_apart (by omega),
        readU32Be_set_apart (by omega), readU32Be_set_apart (by omega)]

end Images

/-- `SkinVariant::Classic` stands for whatever is not slim. -/
def parseVariant (value : String) : SkinVariant :=
  if value = "SLIM" || value = "slim" then .slim else .classic

def variantStr : SkinVariant → String
  | .slim => "SLIM"
  | .classic => "CLASSIC"

def TextureKind.variant : TextureKind → Option String → Option SkinVariant
  | skin, text => some ((text.map parseVariant).getD .classic)
  | cape, _ => none

/-! ## Files -/

def maxUploadBytes : Nat := 256 * 1024

/-- What `revision_hex` draws: six bytes. -/
structure Revision where
  hex : String
  digits : hex.toList.length = 12
  deriving DecidableEq

def fileName (profileUuid : String) (revision : Revision) : String :=
  profileUuid ++ "-" ++ revision.hex ++ ".png"

def diskPath (storageRoot : List String) (kind : TextureKind) (profileUuid : String)
    (revision : Revision) : List String :=
  storageRoot ++ [kind.storageDir, fileName profileUuid revision]

def relativeTextureUrl (profileUuid kind : String) : String :=
  "/textures/" ++ profileUuid ++ "/" ++ kind

/-! ## The rows and the disk -/

structure TextureService where
  users : List Uuid
  registry : Keyed Texture.key
  disk : Tree String Bytes
  folding : CaseFolding

/-- The order of equal times is up to the execution of a query. -/
inductive TextureStatement where
  | filePath (userId : Uuid) (kind : TextureKind)
  | upsert (row : Texture)
  | deleteByUser (kind : TextureKind) (userId : Uuid)
  | adminFetchAll (kind : TextureKind) (arrangement : Arrangement Texture.recency)

namespace TextureStatement

@[reducible] def Reply : TextureStatement → Type
  | filePath .. => Option (List String)
  | upsert _ => Unit
  | deleteByUser .. => Option (List String)
  | adminFetchAll .. => List Texture

def execute (service : TextureService) :
    (statement : TextureStatement) →
      Except DatabaseError statement.Reply × TextureService
  | filePath userId kind =>
      (.ok ((service.registry.find (userId, kind)).map (·.filePath)), service)
  | upsert row =>
      if row.userId ∈ service.users then
        (.ok (), { service with registry := service.registry.upsert row })
      else (.error .foreignKeyViolation, service)
  | deleteByUser kind userId =>
      (.ok ((service.registry.find (userId, kind)).map (·.filePath)),
        { service with registry := service.registry.erase (userId, kind) })
  | adminFetchAll kind arrangement =>
      (.ok ((adminList service.folding kind "" Int64.maxValue 0 service.registry.rows
        arrangement).getD []), service)

end TextureStatement

inductive TextureOperation where
  | statement (statement : TextureStatement)
  | disk (call : DiskCall)

namespace TextureOperation

@[reducible] def Result : TextureOperation → Type
  | statement asked => Except DatabaseError asked.Reply
  | disk call => Except IoError call.Answer

def perform (service : TextureService) :
    (operation : TextureOperation) → operation.Result × TextureService
  | statement asked => asked.execute service
  | disk call =>
      ((call.perform service.disk).1, { service with disk := (call.perform service.disk).2 })

def fault : (operation : TextureOperation) → Option operation.Result
  | statement _ => some (.error .connection)
  | disk _ => some (.error .device)

end TextureOperation

@[reducible] def textureStore : Interface where
  State := TextureService
  Operation := TextureOperation
  Result := TextureOperation.Result
  ready := fun _ _ => true
  perform := TextureOperation.perform
  fault := TextureOperation.fault

/-! ## Handlers -/

abbrev TextureHandler (Reply : Type) := Fallible textureStore AppError Reply

/-- `.await?` on a statement. -/
def ask (statement : TextureStatement) : TextureHandler statement.Reply := do
  match ← @Fallible.operate textureStore AppError (.statement statement) with
  | .ok reply => pure reply
  | .error error => throw (.database error)

def onDisk (call : DiskCall) : TextureHandler (Except IoError call.Answer) :=
  @Fallible.operate textureStore AppError (.disk call)

def unlinkQuiet (path : List String) : TextureHandler Unit := do
  let _ ← onDisk (.removeFile path)

def ioTexture (call : DiskCall) : TextureHandler call.Answer := do
  match ← onDisk call with
  | .ok answer => pure answer
  | .error error => throw (.internal ("write texture: " ++ error.text))

def writeFile (path : List String) (bytes : Bytes) : TextureHandler Unit := do
  ioTexture (.createDirAll path.dropLast)
  ioTexture (.create path)
  ioTexture (.append path bytes)

structure AuthUser where
  id : Uuid
  username : String
  profileUuid : Option String
  deriving DecidableEq, Repr

inductive TextureReply where
  | noContent
  | deleted (deleted : Bool)
  | orphans (skins capes : List Texture)
  | purged (skins capes : Nat)
  deriving DecidableEq, Repr

def readUpload (kind : TextureKind) (multipart : Multipart) :
    Except AppError (Bytes × Option SkinVariant) :=
  match readCappedUpload multipart maxUploadBytes "variant" with
  | .error error => .error error
  | .ok (none, _) => .error (.badRequest "missing file field")
  | .ok (some file, text) =>
      match validatePng kind file with
      | .error error =>
          .error (.badRequest ("invalid " ++ kind.asStr ++ " png: " ++ error.text))
      | .ok _ => .ok (file, kind.variant text)

def unlinkReplaced (path : List String) : Option (List String) → TextureHandler Unit
  | none => pure ()
  | some old => if old ≠ path then unlinkQuiet old else pure ()

def storeTexture (row : Texture) (file : Bytes) : TextureHandler Unit := do
  writeFile row.filePath file
  let old ← ask (.filePath row.userId row.kind)
  ask (.upsert row)
  unlinkReplaced row.filePath old

def upload (storageRoot : List String) (segment : String) (user : AuthUser)
    (multipart : Multipart) (revision : Revision) (now : Timestamp) :
    TextureHandler TextureReply := do
  let kind ← Fallible.okOr (TextureKind.parse segment) (.notFound "unknown texture")
  let (file, variant) ← Fallible.lift (readUpload kind multipart)
  let profileUuid ← Fallible.okOr user.profileUuid .forbidden
  storeTexture
    { userId := user.id
      kind := kind
      profileUuid := profileUuid
      username := user.username
      filePath := diskPath storageRoot kind profileUuid revision
      fileUrl := relativeTextureUrl profileUuid kind.asStr
      fileSize := asI32 file.length
      variant := variant
      updatedAt := now } file
  pure .noContent

def unlinkDeleted : Option (List String) → TextureHandler Unit
  | none => pure ()
  | some path => unlinkQuiet path

def delete (segment : String) (user : AuthUser) : TextureHandler TextureReply := do
  let kind ← Fallible.okOr (TextureKind.parse segment) (.notFound "unknown texture")
  let path ← ask (.deleteByUser kind user.id)
  unlinkDeleted path
  pure .noContent

/-- `userId` is what `Uuid::parse_str` makes of the segment. -/
def adminDelete (kind : TextureKind) (userId : Option Uuid) : TextureHandler TextureReply := do
  let id ← Fallible.okOr userId (.badRequest "invalid user id")
  let removed ← ask (.deleteByUser kind id)
  unlinkDeleted removed
  pure (.deleted removed.isSome)

/-- `metadata` fails wherever the call is in error or finds nothing. -/
def missingOf : List Texture → TextureHandler (List Texture)
  | [] => pure []
  | row :: rest => do
      let found ← onDisk (.tryExists row.filePath)
      let orphans ← missingOf rest
      match found with
      | .ok true => pure orphans
      | _ => pure (row :: orphans)

def collectOrphans (kind : TextureKind) (arrangement : Arrangement Texture.recency) :
    TextureHandler (List Texture) := do
  let rows ← ask (.adminFetchAll kind arrangement)
  missingOf rows

def purgeRows (kind : TextureKind) : List Texture → TextureHandler Nat
  | [] => pure 0
  | row :: rest => do
      let _ ← ask (.deleteByUser kind row.userId)
      let purged ← purgeRows kind rest
      pure (purged + 1)

def purgeKind (kind : TextureKind) (arrangement : Arrangement Texture.recency) :
    TextureHandler Nat := do
  let orphans ← collectOrphans kind arrangement
  purgeRows kind orphans

/-- `owner` is what `resolve_user_id` answers about a profile. -/
def readPng (uuid segment : String) (owner : String → Except DatabaseError (Option Uuid)) :
    TextureHandler Bytes := do
  let kind ← Fallible.okOr (TextureKind.parse segment) (.notFound "unknown texture")
  let profileUuid ← Fallible.lift
    ((Text.undashUuid uuid).mapError fun _ => AppError.badRequest "invalid profile uuid")
  let known ← Fallible.lift ((owner profileUuid).mapError AppError.database)
  let userId ← Fallible.okOr known (.notFound "texture not found")
  let found ← ask (.filePath userId kind)
  let path ← Fallible.okOr found (.notFound "texture not found")
  match ← onDisk (.read path) with
  | .ok bytes => pure bytes
  | .error _ => throw (.notFound "texture file missing")

inductive TextureRequest where
  | upload (segment : String) (user : AuthUser) (multipart : Multipart) (revision : Revision)
      (now : Timestamp)
  | delete (segment : String) (user : AuthUser)
  | adminDelete (kind : TextureKind) (userId : Option Uuid)
  | orphans (skins capes : Arrangement Texture.recency)
  | purgeMissing (skins capes : Arrangement Texture.recency)

def TextureRequest.handler (storageRoot : List String) :
    TextureRequest → TextureHandler TextureReply
  | upload segment user multipart revision now =>
      Textures.upload storageRoot segment user multipart revision now
  | delete segment user => Textures.delete segment user
  | adminDelete kind userId => Textures.adminDelete kind userId
  | orphans skins capes => do
      let missingSkins ← collectOrphans .skin skins
      let missingCapes ← collectOrphans .cape capes
      pure (.orphans missingSkins missingCapes)
  | purgeMissing skins capes => do
      let purgedSkins ← purgeKind .skin skins
      let purgedCapes ← purgeKind .cape capes
      pure (.purged purgedSkins purgedCapes)

def handleTexture (storageRoot : List String) (request : TextureRequest) :
    Process textureStore (Except AppError TextureReply) :=
  (request.handler storageRoot).run

/-! ## How they are judged -/

section Rules

variable {logic : Logic textureStore} {onError : AppError → logic.Situation → Prop}
  {situation : logic.Situation}

@[simp] theorem meets_ask (statement : TextureStatement)
    {onOk : statement.Reply → logic.Situation → Prop} :
    @Fallible.Meets textureStore AppError (no_index statement.Reply) (ask statement) logic onOk
        onError situation ↔
      logic.admits situation (.statement statement) fun result following =>
        match result with
        | .ok reply => onOk reply following
        | .error error => onError (.database error) following := by
  rw [ask, Fallible.meets_bind, Fallible.meets_operate]
  refine iff_of_eq (congrArg _ ?_)
  funext result following
  cases result <;> rfl

@[simp] theorem meets_onDisk (call : DiskCall)
    {onOk : Except IoError call.Answer → logic.Situation → Prop} :
    @Fallible.Meets textureStore AppError (no_index (Except IoError call.Answer)) (onDisk call)
        logic onOk onError situation ↔
      logic.admits situation (.disk call) onOk := Iff.rfl

@[simp] theorem meets_ioTexture (call : DiskCall) {onOk : call.Answer → logic.Situation → Prop} :
    @Fallible.Meets textureStore AppError (no_index call.Answer) (ioTexture call) logic onOk
        onError situation ↔
      logic.admits situation (.disk call) fun result following =>
        match result with
        | .ok answer => onOk answer following
        | .error error => onError (.internal ("write texture: " ++ error.text)) following := by
  rw [ioTexture, Fallible.meets_bind, meets_onDisk]
  refine iff_of_eq (congrArg _ ?_)
  funext result following
  cases result <;> rfl

end Rules

end Loontail.Textures
