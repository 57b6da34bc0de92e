import Loontail.Catalog.Schema
import Loontail.Relational.Grouping
import Mathlib.Data.Prod.Lex

/-! # Selections of the catalog

What the catalog is read with. A selection for many owners, `WHERE client_id = ANY($1)`,
returns their rows in one list. Rows without an `ORDER BY`, and rows that it does not tell
apart, come in the order of the table. -/

namespace Loontail.Catalog

open Relational
open Bundles (Bundle)

/-! ## Rows -/

structure ClientRow where
  id : Uuid
  slug : String
  available : Bool
  minecraftVersion : Option String
  forgeVersion : Option String
  fabricVersion : Option String
  runtimeVersion : Option String
  bundleId : Option Uuid
  deriving DecidableEq, Repr

structure ClientAdminRow where
  client : ClientRow
  published : Bool
  deriving DecidableEq, Repr

structure ClientKeywordBatchRow where
  clientId : Uuid
  id : Uuid
  deriving DecidableEq, Repr

structure ServerBatchRow where
  clientId : Uuid
  id : Uuid
  name : Option String
  address : String
  deriving DecidableEq, Repr

/-- `CLIENT_COLS`. -/
def CatalogClient.row (client : CatalogClient) : ClientRow where
  id := client.id
  slug := client.slug
  available := client.available
  minecraftVersion := client.minecraftVersion
  forgeVersion := client.forgeVersion
  fabricVersion := client.fabricVersion
  runtimeVersion := client.runtimeVersion
  bundleId := client.bundleId

namespace Sql

/-! ## Clients -/

/-- `ORDER BY sort_order, created_at`. -/
def clientRank (client : CatalogClient) : Int ×ₗ Timestamp :=
  toLex (client.sortOrder, client.createdAt)

def listPublished (database : Database) : List ClientRow :=
  (orderBy clientRank (database.clients.rows.filter (·.publishedAt.isSome))).map CatalogClient.row

def listAll (database : Database) : List ClientAdminRow :=
  (orderBy clientRank database.clients.rows).map fun client =>
    ⟨client.row, client.publishedAt.isSome⟩

/-- `WHERE published_at IS NOT NULL AND (id = $1 OR slug = $2) ORDER BY (id = $1) DESC LIMIT 1`. -/
def publishedByIdent {Row : Type} (idOf : Row → Uuid) (slugOf : Row → String)
    (publishedAt : Row → Option Timestamp) (id : Option Uuid) (slug : String)
    (rows : List Row) : Option Row :=
  (orderBy (fun row => decide (some (idOf row) ≠ id)) (rows.filter fun row =>
    (publishedAt row).isSome && (some (idOf row) = id || slugOf row = slug))).head?

def publishedClient (id : Option Uuid) (slug : String) (database : Database) : Option ClientRow :=
  (publishedByIdent CatalogClient.id CatalogClient.slug CatalogClient.publishedAt id slug
    database.clients.rows).map CatalogClient.row

/-! ## What belongs to clients -/

def localesOf (clientIds : List Uuid) (database : Database) : List ClientLocale :=
  database.locales.rows.filter fun row => row.clientId ∈ clientIds

/-- `ORDER BY client_id, sort_order, created_at`. -/
def mediaRank (row : CatalogMedia) : Uuid ×ₗ Int ×ₗ Timestamp :=
  toLex (row.clientId, toLex (row.sortOrder, row.createdAt))

def mediaOf (clientIds : List Uuid) (database : Database) : List CatalogMedia :=
  orderBy mediaRank (database.media.rows.filter fun row => row.clientId ∈ clientIds)

def joined {Link Row : Type} (target : Link → Option Row) (links : List Link) :
    List (Link × Row) :=
  links.filterMap fun link => (target link).map fun row => (link, row)

def keywordLinks (database : Database) : List (ClientKeyword × CatalogKeyword) :=
  joined (fun link => database.keywords.find link.keywordId) database.clientKeywords

/-- `ORDER BY ck.client_id, ck.sort_order, k.created_at`. -/
def keywordRank (linked : ClientKeyword × CatalogKeyword) : Uuid ×ₗ Int ×ₗ Timestamp :=
  toLex (linked.1.clientId, toLex (linked.1.sortOrder, linked.2.createdAt))

def keywordsOf (clientIds : List Uuid) (database : Database) : List ClientKeywordBatchRow :=
  (orderBy keywordRank ((keywordLinks database).filter fun linked =>
    linked.1.clientId ∈ clientIds && linked.2.publishedAt.isSome)).map fun linked =>
      ⟨linked.1.clientId, linked.2.id⟩

def serverLinks (database : Database) : List (ClientServer × CatalogServer) :=
  joined (fun link => database.servers.find link.serverId) database.clientServers

/-- `ORDER BY cs.client_id, cs.sort_order, s.created_at`. -/
def serverRank (linked : ClientServer × CatalogServer) : Uuid ×ₗ Int ×ₗ Timestamp :=
  toLex (linked.1.clientId, toLex (linked.1.sortOrder, linked.2.createdAt))

def serversOf (clientIds : List Uuid) (database : Database) : List ServerBatchRow :=
  (orderBy serverRank ((serverLinks database).filter fun linked =>
    linked.1.clientId ∈ clientIds && linked.2.publishedAt.isSome)).map fun linked =>
      ⟨linked.1.clientId, linked.2.id, linked.2.name, linked.2.address⟩

/-! ## What is shared between clients -/

def keywordLocalesOf (keywordIds : List Uuid) (database : Database) : List KeywordLocale :=
  database.keywordLocales.rows.filter fun row => row.keywordId ∈ keywordIds

def bundlesOf (bundleIds : List Uuid) (database : Database) : List Bundle :=
  database.registry.bundles.rows.filter fun bundle => bundle.id ∈ bundleIds

/-! ## Reading for one owner out of many

Within the rows for many owners, those of one of them are the rows for it alone. -/

section Own

variable {id : Uuid} {ids : List Uuid} (database : Database)

theorem selects_own {owner : Uuid} (member : id ∈ ids) :
    (decide (owner = id) && decide (owner ∈ ids)) = decide (owner ∈ [id]) := by
  by_cases same : owner = id <;> simp [same, member]

theorem selects_own_and {owner : Uuid} {rest : Bool} (member : id ∈ ids) :
    (decide (owner = id) && (decide (owner ∈ ids) && rest)) =
      (decide (owner ∈ [id]) && rest) := by
  rw [← Bool.and_assoc, selects_own member]

theorem localesOf_own (member : id ∈ ids) :
    (localesOf ids database).filter (fun row => row.clientId = id) = localesOf [id] database := by
  rw [localesOf, localesOf, List.filter_filter]
  exact List.filter_congr fun row _ => selects_own member

theorem mediaOf_own (member : id ∈ ids) :
    (mediaOf ids database).filter (fun row => row.clientId = id) = mediaOf [id] database := by
  rw [mediaOf, mediaOf, filter_orderBy, List.filter_filter]
  congr 1
  exact List.filter_congr fun row _ => selects_own member

theorem keywordsOf_own (member : id ∈ ids) :
    (keywordsOf ids database).filter (fun row => row.clientId = id) =
      keywordsOf [id] database := by
  rw [keywordsOf, keywordsOf, List.filter_map, filter_orderBy, List.filter_filter]
  congr 2
  exact List.filter_congr fun linked _ => selects_own_and member

theorem serversOf_own (member : id ∈ ids) :
    (serversOf ids database).filter (fun row => row.clientId = id) = serversOf [id] database := by
  rw [serversOf, serversOf, List.filter_map, filter_orderBy, List.filter_filter]
  congr 2
  exact List.filter_congr fun linked _ => selects_own_and member

theorem keywordLocalesOf_own (member : id ∈ ids) :
    (keywordLocalesOf ids database).filter (fun row => row.keywordId = id) =
      keywordLocalesOf [id] database := by
  rw [keywordLocalesOf, keywordLocalesOf, List.filter_filter]
  exact List.filter_congr fun row _ => selects_own member

end Own

end Sql

end Loontail.Catalog
