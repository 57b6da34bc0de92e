import Loontail.Bundles.Statements
import Loontail.Catalog.Selections
import Loontail.Bundles.Service
import Loontail.Concurrency.Transaction

/-! # The state that catalog handlers share

The database, the tree of the bundles below `{storage_root}/builds`, and the tree of the
media, which has a storage root of its own. -/

/-! ## Statements of the catalog

What the registry's statements do to the catalog is part of it: a bundle that goes takes
the links to it along. -/

namespace Loontail.Catalog

open Concurrency Disk Relational
open Bundles (Builds DiskCall)

abbrev Executed (Reply : Type) := Except DatabaseError (Reply × Database)

structure ClientFields where
  slug : String
  available : Bool
  minecraftVersion : Option String
  forgeVersion : Option String
  fabricVersion : Option String
  runtimeVersion : Option String
  sortOrder : Option Int
  deriving DecidableEq, Repr

/-- The sort order is kept when it is not given. -/
def ClientFields.overwrite (fields : ClientFields) (client : CatalogClient) : CatalogClient :=
  { client with
    slug := fields.slug
    available := fields.available
    minecraftVersion := fields.minecraftVersion
    forgeVersion := fields.forgeVersion
    fabricVersion := fields.fabricVersion
    runtimeVersion := fields.runtimeVersion
    sortOrder := fields.sortOrder.getD client.sortOrder }

@[simp] theorem ClientFields.overwrite_id (fields : ClientFields) (client : CatalogClient) :
    (fields.overwrite client).id = client.id := rfl

structure ClientLocaleInput where
  locale : String
  title : String
  description : Option String
  shortDescription : Option String
  deriving DecidableEq, Repr

def ClientLocaleInput.overwrite (input : ClientLocaleInput) (row : ClientLocale) : ClientLocale :=
  { row with
    title := input.title
    description := input.description
    shortDescription := input.shortDescription }

namespace Sql

/-! ## Clients -/

/-- `NULL` is a link to nothing. -/
theorem linkedTo_none {registry : Bundles.Database} {client : CatalogClient}
    (unlinked : client.bundleId = none) : LinkedTo registry client := by
  intro bundleId linked
  rw [unlinked] at linked
  cases linked

def insertClient (now : Timestamp) (fields : ClientFields) (publish : Bool) (database : Database) :
    Executed Uuid :=
  let id := database.registry.ids.next database.clients.issued
  let client := fields.overwrite
    ⟨id, "", false, none, none, none, none, none, none, 0, if publish then some now else none, now⟩
  match inserted : database.clients.insert client with
  | some clients =>
      .ok (id, { database with
        clients
        linked := by
          intro row member
          rw [(Table.insert_rows inserted).1] at member
          rcases List.mem_cons.mp member with rfl | present
          · exact linkedTo_none rfl
          · exact database.linked row present })
  | none => .error .uniqueViolation

def updateClient (id : Uuid) (fields : ClientFields) (database : Database) : Executed Unit :=
  match claimed : database.clients.claim (fun client => client.id = id) fields.overwrite with
  | some clients =>
      .ok ((), { database with
        clients
        linked := by
          intro row member
          rw [(Table.claim_rows claimed).1] at member
          obtain ⟨old, present, rfl⟩ := List.mem_map.mp member
          unfold Table.revise
          split
          · exact database.linked old present
          · exact database.linked old present })
  | none => .error .uniqueViolation

/-- `UPDATE catalog_clients SET bundle_id = $1, bundle_slug = $2 WHERE id = $3`. -/
def linkBundle (id bundleId : Uuid) (bundleSlug : String) (database : Database) : Executed Unit :=
  if there : (database.registry.bundles.find bundleId).isSome then
    .ok ((), { database with
      clients := database.clients.update (fun client => client.id = id)
        fun client => { client with bundleId := some bundleId, bundleSlug := some bundleSlug }
      linked := by
        intro row member
        obtain ⟨old, present, rfl⟩ := List.mem_map.mp member
        unfold Table.revise
        split
        · rintro other ⟨⟩
          exact there
        · exact database.linked old present })
  else .error .foreignKeyViolation

/-- What refers to the client goes with it. -/
def deleteClient (id : Uuid) (database : Database) : Database :=
  { database with
    clients := database.clients.delete fun client => client.id = id
    locales := database.locales.delete fun row => row.clientId = id
    media := database.media.delete fun row => row.clientId = id
    clientKeywords := database.clientKeywords.filter fun link => link.clientId ≠ id
    clientServers := database.clientServers.filter fun link => link.clientId ≠ id
    linked := fun client member =>
      database.linked client (List.mem_of_mem_filter member) }

/-! ## Locales -/

/-- `INSERT … ON CONFLICT (client_id, locale) DO UPDATE`. -/
def upsertLocale (clientId : Uuid) (input : ClientLocaleInput) (database : Database) :
    Executed Unit :=
  let selected := fun (row : ClientLocale) =>
    decide (row.clientId = clientId ∧ row.locale = input.locale)
  if database.locales.affected selected = 0 then
    if (database.clients.find clientId).isSome then
      let id := database.registry.ids.next database.locales.issued
      match database.locales.insert
          (input.overwrite ⟨id, clientId, input.locale, "", none, none⟩) with
      | some locales => .ok ((), { database with locales })
      | none => .error .uniqueViolation
    else .error .foreignKeyViolation
  else
    .ok ((), { database with locales := database.locales.update selected input.overwrite })

def deleteLocalesBut (clientId : Uuid) (locales : List String) (database : Database) : Database :=
  { database with
    locales := database.locales.delete fun row =>
      row.clientId = clientId && !locales.contains row.locale }

/-! ## The registry -/

/-- `ON DELETE SET NULL`: the links to bundles that are gone go too. -/
def withRegistry (registry : Bundles.Database) (database : Database) : Database :=
  { database with
    registry
    clients := database.clients.update
      (fun client => client.bundleId.any fun bundleId => (registry.bundles.find bundleId).isNone)
      fun client => { client with bundleId := none }
    linked := by
      intro row member
      obtain ⟨old, -, rfl⟩ := List.mem_map.mp member
      unfold Table.revise
      split
      · exact linkedTo_none rfl
      · rename_i kept
        intro bundleId linked
        cases found : registry.bundles.find bundleId with
        | none => simp [linked, found] at kept
        | some bundle => rfl }

end Sql

inductive Statement where
  | insertClient (now : Timestamp) (fields : ClientFields) (publish : Bool)
  | clientBundle (id : Uuid)
  | updateClient (id : Uuid) (fields : ClientFields)
  | linkBundle (id bundleId : Uuid) (bundleSlug : String)
  | countLinks (bundleId : Uuid)
  | deleteClient (id : Uuid)
  | upsertLocale (clientId : Uuid) (input : ClientLocaleInput)
  | deleteLocalesBut (clientId : Uuid) (locales : List String)
  | listPublished
  | listAll
  | publishedClient (id : Option Uuid) (slug : String)
  | localesOf (clientIds : List Uuid)
  | mediaOf (clientIds : List Uuid)
  | keywordsOf (clientIds : List Uuid)
  | serversOf (clientIds : List Uuid)
  | keywordLocalesOf (keywordIds : List Uuid)
  | bundlesOf (bundleIds : List Uuid)
  | ofRegistry (statement : Bundles.Statement)
  deriving DecidableEq, Repr

namespace Statement

@[reducible] def Reply : Statement → Type
  | insertClient .. => Uuid
  | clientBundle _ => Option (Option Uuid)
  | countLinks _ => Nat
  | listPublished => List ClientRow
  | listAll => List ClientAdminRow
  | publishedClient .. => Option ClientRow
  | localesOf _ => List ClientLocale
  | mediaOf _ => List CatalogMedia
  | keywordsOf _ => List ClientKeywordBatchRow
  | serversOf _ => List ServerBatchRow
  | keywordLocalesOf _ => List KeywordLocale
  | bundlesOf _ => List Bundles.Bundle
  | ofRegistry statement => statement.Reply
  | _ => Unit

def execute (database : Database) : (statement : Statement) → Executed statement.Reply
  | insertClient now fields publish => Sql.insertClient now fields publish database
  | clientBundle id => .ok ((database.clients.find id).map (·.bundleId), database)
  | updateClient id fields => Sql.updateClient id fields database
  | linkBundle id bundleId bundleSlug => Sql.linkBundle id bundleId bundleSlug database
  | countLinks bundleId =>
      .ok (database.clients.affected fun client => client.bundleId = some bundleId, database)
  | deleteClient id => .ok ((), Sql.deleteClient id database)
  | upsertLocale clientId input => Sql.upsertLocale clientId input database
  | deleteLocalesBut clientId locales => .ok ((), Sql.deleteLocalesBut clientId locales database)
  | listPublished => .ok (Sql.listPublished database, database)
  | listAll => .ok (Sql.listAll database, database)
  | publishedClient id slug => .ok (Sql.publishedClient id slug database, database)
  | localesOf clientIds => .ok (Sql.localesOf clientIds database, database)
  | mediaOf clientIds => .ok (Sql.mediaOf clientIds database, database)
  | keywordsOf clientIds => .ok (Sql.keywordsOf clientIds database, database)
  | serversOf clientIds => .ok (Sql.serversOf clientIds database, database)
  | keywordLocalesOf keywordIds => .ok (Sql.keywordLocalesOf keywordIds database, database)
  | bundlesOf bundleIds => .ok (Sql.bundlesOf bundleIds database, database)
  | ofRegistry statement =>
      match statement.execute database.registry with
      | .ok (reply, registry) => .ok (reply, Sql.withRegistry registry database)
      | .error error => .error error

end Statement

/-! ## Databases and trees -/

@[reducible] def sql : Dialect where
  Database := Database
  Statement := Statement
  Error := DatabaseError
  Reply := Statement.Reply
  execute := Statement.execute
  disconnected := .connection

structure Trees where
  builds : Builds
  media : Tree String Bytes

inductive TreeCall where
  | builds (call : DiskCall)
  | media (call : DiskCall)
  deriving DecidableEq, Repr

namespace TreeCall

@[reducible] def Answer : TreeCall → Type
  | builds call => Except IoError call.Answer
  | media call => Except IoError call.Answer

def perform (trees : Trees) : (call : TreeCall) → call.Answer × Trees
  | .builds call =>
      let performed := call.perform trees.builds
      (performed.1, { trees with builds := performed.2 })
  | .media call =>
      let performed := call.perform trees.media
      (performed.1, { trees with media := performed.2 })

def fault : (call : TreeCall) → Option call.Answer
  | builds _ => some (.error .device)
  | media _ => some (.error .device)

end TreeCall

@[reducible] def storage : Device where
  State := Trees
  Call := TreeCall
  Answer := TreeCall.Answer
  perform := TreeCall.perform
  fault := TreeCall.fault

abbrev Service := Stores sql storage

abbrev catalog : Interface := Transactional sql storage

abbrev Handler (Reply : Type) := Fallible catalog AppError Reply

/-! ## Handlers -/

/-- `.await?` on a statement. -/
abbrev query (statement : Statement) : Handler statement.Reply :=
  @Transactional.query sql storage AppError AppError.database statement

abbrev begin : Handler Unit := @Transactional.begin sql storage AppError AppError.database

abbrev inside (log : List Statement) (statement : Statement) : Handler statement.Reply :=
  @Transactional.inside sql storage AppError AppError.database log statement

abbrev insideAll (log statements : List Statement) : Handler (List Statement) :=
  @Transactional.insideAll sql storage AppError AppError.database log statements

abbrev commit (log : List Statement) : Handler Unit :=
  @Transactional.commit sql storage AppError AppError.database log

/-- `slug_conflict(entity)`. -/
def slugConflict (entity : String) : DatabaseError → AppError
  | .uniqueViolation => .conflict (entity ++ " slug already exists")
  | error => .database error

/-- `.map_err(slug_conflict(entity))?`. -/
abbrev insideSlug (entity : String) (log : List Statement) (statement : Statement) :
    Handler statement.Reply :=
  @Transactional.inside sql storage AppError (slugConflict entity) log statement

def onBuilds (call : DiskCall) : Handler (Except IoError call.Answer) :=
  @Transactional.operate sql storage AppError (.onDevice (.builds call))

def onMedia (call : DiskCall) : Handler (Except IoError call.Answer) :=
  @Transactional.operate sql storage AppError (.onDevice (.media call))

end Loontail.Catalog
