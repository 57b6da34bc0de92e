import Loontail.Catalog.Dto
import Loontail.Catalog.Service
import Loontail.Concurrency.Transaction

/-! # Reads of the catalog

The public reads leave out drafts. Whatever belongs to the clients of a list is loaded in
one statement for each kind of relation. -/

namespace Loontail.Catalog

open Concurrency Relational
open Bundles (Bundle)

/-! ## Shared rows -/

def titlesIn (keywordIds : List Uuid) (rows : List KeywordLocale) (requested : String) :
    AList fun _ : Uuid => String :=
  let grouped := Groups.of KeywordLocale.keywordId (fun row => (row.locale, row.title)) rows
  indexBy id (fun id => (pickLocale (grouped.group id) requested).getD "") keywordIds

def loadKeywordTitles (ids : List Uuid) (requested : String) :
    Handler (AList fun _ : Uuid => String) := do
  let keywordIds := distinct ids
  if keywordIds.isEmpty then pure ∅
  else
    let rows ← query (.keywordLocalesOf keywordIds)
    pure (titlesIn keywordIds rows requested)

/-- A link to a bundle that is not among the rows has no entry. -/
def summariesIn (bundleLinks : List (Uuid × Uuid)) (rows : List Bundle) :
    AList fun _ : Uuid => BundleSummaryDto :=
  let byBundle := indexBy Bundle.id id rows
  indexBy Prod.fst (fun found => bundleSummary found.2)
    (bundleLinks.filterMap fun link => (byBundle.lookup link.2).map fun bundle => (link.1, bundle))

def loadBundles (bundleLinks : List (Uuid × Uuid)) :
    Handler (AList fun _ : Uuid => BundleSummaryDto) := do
  if bundleLinks.isEmpty then pure ∅
  else
    let rows ← query (.bundlesOf (distinct (bundleLinks.map (·.2))))
    pure (summariesIn bundleLinks rows)

/-! ## Relations -/

def loadClientRelations (clientIds : List Uuid) (bundleLinks : List (Uuid × Uuid))
    (locale : String) : Handler ClientRelations := do
  if clientIds.isEmpty then pure .empty
  else
    let localeRows ← query (.localesOf clientIds)
    let mediaRows ← query (.mediaOf clientIds)
    let keywordRows ← query (.keywordsOf clientIds)
    let titles ← loadKeywordTitles (keywordRows.map (·.id)) locale
    let serverRows ← query (.serversOf clientIds)
    let bundles ← loadBundles bundleLinks
    pure
      { locales := .of ClientLocale.clientId (fun row => (row.locale, row.text)) localeRows
        media := .of CatalogMedia.clientId CatalogMedia.row mediaRows
        keywords := .of ClientKeywordBatchRow.clientId
          (fun row => ⟨idHex row.id, (titles.lookup row.id).getD ""⟩) keywordRows
        servers := .of ServerBatchRow.clientId serverDto serverRows
        bundles }

def bundleLinks (rows : List ClientRow) : List (Uuid × Uuid) :=
  rows.filterMap fun row => row.bundleId.map fun bundleId => (row.id, bundleId)

/-! ## The lists -/

def listClients (asked : CatalogQuery) : Handler (List ClientDto) := do
  let rows ← query .listPublished
  let locale := asked.locale.getD defaultLocale
  let relations ← loadClientRelations (rows.map (·.id)) (bundleLinks rows) locale
  pure (assembleClients id (fun _ dto => dto) locale rows relations)

/-- The flag of a draft goes beside what the public read says of a client. -/
def listClientsAdmin (asked : CatalogQuery) : Handler (List ClientAdminDto) := do
  let rows ← query .listAll
  let locale := asked.locale.getD defaultLocale
  let clients := rows.map (·.client)
  let relations ← loadClientRelations (clients.map (·.id)) (bundleLinks clients) locale
  pure (assembleClients ClientAdminRow.client (fun row dto => ⟨dto, row.published⟩) locale rows
    relations)

/-- `parse` reads an identifier, `Uuid::parse_str`. -/
def loadClient (parse : String → Option Uuid) (ident : String) (asked : CatalogQuery) :
    Handler (Option ClientDto) := do
  match ← query (.publishedClient (parse ident) ident) with
  | some row =>
      let locale := asked.locale.getD defaultLocale
      let relations ← loadClientRelations [row.id] (bundleLinks [row]) locale
      pure (some (assembleClientDto row relations locale).1)
  | none => pure none

/-! ## What is loaded -/

section Loaded

variable {stores : Service}

theorem reads_select {statement : Statement} {reply : statement.Reply}
    (selected : Statement.execute stores.database statement = .ok (reply, stores.database)) :
    @Fallible.Reads catalog AppError statement.Reply (query statement) stores reply :=
  Transactional.reads_query selected

def titlesOf (ids : List Uuid) (requested : String) (database : Database) :
    AList fun _ : Uuid => String :=
  titlesIn (distinct ids) (Sql.keywordLocalesOf (distinct ids) database) requested

theorem loadKeywordTitles_reads (ids : List Uuid) (requested : String) :
    (loadKeywordTitles ids requested).Reads stores (titlesOf ids requested stores.database) := by
  unfold loadKeywordTitles
  dsimp only
  split
  · rename_i empty
    rw [titlesOf, List.isEmpty_iff.mp empty]
    exact Fallible.reads_pure ∅
  · exact (reads_select rfl).bind (Fallible.reads_pure _)

def summariesOf (bundleLinks : List (Uuid × Uuid)) (database : Database) :
    AList fun _ : Uuid => BundleSummaryDto :=
  summariesIn bundleLinks (Sql.bundlesOf (distinct (bundleLinks.map (·.2))) database)

theorem loadBundles_reads (bundleLinks : List (Uuid × Uuid)) :
    (loadBundles bundleLinks).Reads stores (summariesOf bundleLinks stores.database) := by
  unfold loadBundles
  split
  · rename_i empty
    rw [List.isEmpty_iff.mp empty]
    exact Fallible.reads_pure ∅
  · exact (reads_select rfl).bind (Fallible.reads_pure _)

def relationsOf (clientIds : List Uuid) (bundleLinks : List (Uuid × Uuid)) (locale : String)
    (database : Database) : ClientRelations :=
  let keywordRows := Sql.keywordsOf clientIds database
  let titles := titlesOf (keywordRows.map (·.id)) locale database
  { locales := .of ClientLocale.clientId (fun row => (row.locale, row.text))
      (Sql.localesOf clientIds database)
    media := .of CatalogMedia.clientId CatalogMedia.row (Sql.mediaOf clientIds database)
    keywords := .of ClientKeywordBatchRow.clientId
      (fun row => ⟨idHex row.id, (titles.lookup row.id).getD ""⟩) keywordRows
    servers := .of ServerBatchRow.clientId serverDto (Sql.serversOf clientIds database)
    bundles := summariesOf bundleLinks database }

theorem loadClientRelations_reads {clientIds : List Uuid} (some : clientIds ≠ [])
    (bundleLinks : List (Uuid × Uuid)) (locale : String) :
    (loadClientRelations clientIds bundleLinks locale).Reads stores
      (relationsOf clientIds bundleLinks locale stores.database) := by
  unfold loadClientRelations
  rw [if_neg (fun empty => some (List.isEmpty_iff.mp empty))]
  refine (reads_select rfl).bind ?_
  refine (reads_select rfl).bind ?_
  refine (reads_select rfl).bind ?_
  refine (loadKeywordTitles_reads _ locale).bind ?_
  refine (reads_select rfl).bind ?_
  refine (loadBundles_reads bundleLinks).bind ?_
  exact Fallible.reads_pure _

end Loaded

/-! ## The share of a client -/

def keywordTitle (id : Uuid) (requested : String) (database : Database) : String :=
  (pickLocale ((Sql.keywordLocalesOf [id] database).map fun row => (row.locale, row.title))
    requested).getD ""

def ownRelations (row : ClientRow) (locale : String) (database : Database) : OwnRelations where
  locales := (Sql.localesOf [row.id] database).map fun text => (text.locale, text.text)
  media := (Sql.mediaOf [row.id] database).map CatalogMedia.row
  keywords := (Sql.keywordsOf [row.id] database).map fun keyword =>
    ⟨idHex keyword.id, keywordTitle keyword.id locale database⟩
  servers := (Sql.serversOf [row.id] database).map serverDto
  bundle := (row.bundleId.bind database.registry.bundles.find).map bundleSummary

theorem titlesOf_lookup {keywordId : Uuid} {ids : List Uuid} (requested : String)
    (database : Database) (member : keywordId ∈ ids) :
    (titlesOf ids requested database).lookup keywordId =
      some (keywordTitle keywordId requested database) := by
  have among : keywordId ∈ distinct ids := mem_distinct.mpr member
  refine (@lookup_indexBy Uuid Uuid String _ id _ _ keywordId among ?_).trans ?_
  · rintro other - same
    rw [show other = keywordId from same]
  · rw [Groups.group_of, Sql.keywordLocalesOf_own database among, keywordTitle]

theorem lookup_bundlesOf {bundleId : Uuid} {bundleIds : List Uuid} (database : Database)
    (among : bundleId ∈ bundleIds) :
    (indexBy Bundle.id id (Sql.bundlesOf bundleIds database)).lookup bundleId =
      database.registry.bundles.find bundleId := by
  cases found : database.registry.bundles.find bundleId with
  | none =>
      refine lookup_indexBy_none fun bundle member => ?_
      exact Table.find_eq_none.mp found bundle (List.mem_of_mem_filter member)
  | some bundle =>
      obtain ⟨present, rfl⟩ := Table.find_eq_some.mp found
      refine lookup_indexBy (List.mem_filter.mpr ⟨present, decide_eq_true among⟩) ?_
      intro other member same
      exact Table.eq_of_key_eq (List.mem_of_mem_filter member) present same

def linkedBundles (rows : List ClientRow) (database : Database) : List (Uuid × Bundle) :=
  (bundleLinks rows).filterMap fun link =>
    (database.registry.bundles.find link.2).map fun bundle => (link.1, bundle)

theorem summariesOf_eq (rows : List ClientRow) (database : Database) :
    summariesOf (bundleLinks rows) database =
      indexBy Prod.fst (fun found => bundleSummary found.2) (linkedBundles rows database) := by
  rw [summariesOf, summariesIn, linkedBundles]
  refine congrArg _ (List.filterMap_congr fun link linked => ?_)
  rw [lookup_bundlesOf database (mem_distinct.mpr (List.mem_map_of_mem linked))]

theorem mem_linkedBundles {rows : List ClientRow} {database : Database} {found : Uuid × Bundle} :
    found ∈ linkedBundles rows database ↔ ∃ row ∈ rows, row.id = found.1 ∧
      row.bundleId.bind database.registry.bundles.find = some found.2 := by
  obtain ⟨clientId, bundle⟩ := found
  simp only [linkedBundles, bundleLinks, List.mem_filterMap, Option.map_eq_some_iff,
    Option.bind_eq_some_iff, Prod.mk.injEq]
  constructor
  · rintro ⟨link, ⟨row, member, bundleId, linked, rfl⟩, other, held, rfl, rfl⟩
    exact ⟨row, member, rfl, bundleId, linked, held⟩
  · rintro ⟨row, member, rfl, bundleId, linked, held⟩
    exact ⟨(row.id, bundleId), ⟨row, member, bundleId, linked, rfl⟩, bundle, held, rfl, rfl⟩

theorem summariesOf_lookup {rows : List ClientRow} (database : Database)
    (apart : (rows.map ClientRow.id).Nodup) {row : ClientRow} (member : row ∈ rows) :
    (summariesOf (bundleLinks rows) database).lookup row.id =
      (row.bundleId.bind database.registry.bundles.find).map bundleSummary := by
  rw [summariesOf_eq]
  -- a link of the client's id is the client's own
  have own : ∀ found ∈ linkedBundles rows database, found.1 = row.id →
      row.bundleId.bind database.registry.bundles.find = some found.2 := by
    intro found linked same
    obtain ⟨other, among, named, held⟩ := mem_linkedBundles.mp linked
    rwa [← List.inj_on_of_nodup_map apart among member (named.trans same)]
  cases linked : row.bundleId.bind database.registry.bundles.find with
  | none =>
      refine lookup_indexBy_none fun found among same => ?_
      rw [linked] at own
      cases own found among same
  | some bundle =>
      have held : (row.id, bundle) ∈ linkedBundles rows database :=
        mem_linkedBundles.mpr ⟨row, member, rfl, linked⟩
      refine @lookup_indexBy _ Uuid _ _ Prod.fst _ _ (row.id, bundle) held ?_
      intro found among same
      have one := (own found among same).symm.trans linked
      rw [Option.some.inj one]

theorem ofClient_relationsOf {rows : List ClientRow} (locale : String) (database : Database)
    (apart : (rows.map ClientRow.id).Nodup) {row : ClientRow} (member : row ∈ rows) :
    (relationsOf (rows.map (·.id)) (bundleLinks rows) locale database).ofClient row.id =
      ownRelations row locale database := by
  have among : row.id ∈ rows.map (·.id) := List.mem_map_of_mem member
  simp only [relationsOf, ClientRelations.ofClient, ownRelations, Groups.group_of,
    Sql.localesOf_own database among, Sql.mediaOf_own database among,
    Sql.serversOf_own database among, summariesOf_lookup database apart member]
  congr 1
  rw [Sql.keywordsOf_own database among]
  refine List.map_congr_left fun keyword linked => ?_
  rw [titlesOf_lookup locale database, Option.getD_some]
  rw [← Sql.keywordsOf_own database among] at linked
  exact List.mem_map_of_mem (List.mem_of_mem_filter linked)

/-! ## The reads -/

def described (asked : CatalogQuery) (database : Database) (row : ClientRow) : ClientDto :=
  let locale := asked.locale.getD defaultLocale
  describe row (ownRelations row locale database) locale

section Reads

variable {stores : Service} (asked : CatalogQuery)

/-- However many clients are read at once, each is described by itself. -/
theorem assembled_described {Row Dto : Type} {client : Row → ClientRow}
    {finish : Row → ClientDto → Dto} {rows : List Row} (database : Database)
    (apart : ((rows.map client).map (·.id)).Nodup) :
    assembleClients client finish (asked.locale.getD defaultLocale) rows
        (relationsOf ((rows.map client).map (·.id)) (bundleLinks (rows.map client))
          (asked.locale.getD defaultLocale) database) =
      rows.map fun row => finish row (described asked database (client row)) := by
  rw [assembleClients_eq (by rwa [List.map_map] at apart)]
  refine List.map_congr_left fun row member => ?_
  rw [ofClient_relationsOf _ database apart (List.mem_map_of_mem member), described]

theorem assemble_reads {Row Dto : Type} {client : Row → ClientRow}
    (finish : Row → ClientDto → Dto) {rows : List Row} {clients : List ClientRow}
    (same : rows.map client = clients) (apart : (clients.map (·.id)).Nodup) :
    @Fallible.Reads catalog AppError (List Dto) (do
      let relations ← loadClientRelations (clients.map (·.id)) (bundleLinks clients)
        (asked.locale.getD defaultLocale)
      pure (assembleClients client finish (asked.locale.getD defaultLocale) rows relations))
      stores (rows.map fun row => finish row (described asked stores.database (client row))) := by
  subst same
  cases rows with
  | nil => exact Fallible.reads_pure []
  | cons row rest =>
      rw [← assembled_described asked stores.database apart]
      refine (loadClientRelations_reads (by simp) _ _).bind ?_
      exact Fallible.reads_pure _

theorem selected_apart (database : Database) (selected : CatalogClient → Bool) :
    ((orderBy Sql.clientRank (database.clients.rows.filter selected)).map CatalogClient.id).Nodup := by
  have ordered := (orderBy_perm Sql.clientRank (database.clients.rows.filter selected)).map
    CatalogClient.id
  refine ordered.nodup_iff.mpr ?_
  exact (List.filter_sublist.map CatalogClient.id).nodup database.clients.keysUnique

theorem listClients_reads :
    (listClients asked).Reads stores
      ((Sql.listPublished stores.database).map (described asked stores.database)) := by
  refine (reads_select rfl).bind ?_
  refine assemble_reads asked (fun _ dto => dto) (List.map_id _) ?_
  rw [Sql.listPublished, List.map_map]
  exact selected_apart stores.database _

theorem listClientsAdmin_reads :
    (listClientsAdmin asked).Reads stores ((Sql.listAll stores.database).map fun row =>
      ⟨described asked stores.database row.client, row.published⟩) := by
  refine (reads_select rfl).bind ?_
  refine @assemble_reads stores asked ClientAdminRow ClientAdminDto ClientAdminRow.client
    (fun row dto => ⟨dto, row.published⟩) (Sql.listAll stores.database) _ rfl ?_
  rw [Sql.listAll, List.map_map, List.map_map]
  have apart := selected_apart stores.database fun _ => true
  rwa [List.filter_true] at apart

theorem loadClient_reads (parse : String → Option Uuid) (ident : String) :
    (loadClient parse ident asked).Reads stores
      ((Sql.publishedClient (parse ident) ident stores.database).map
        (described asked stores.database)) := by
  refine (reads_select rfl).bind ?_
  cases Sql.publishedClient (parse ident) ident stores.database with
  | none => exact Fallible.reads_pure none
  | some row =>
      have own := @ofClient_relationsOf [row] (asked.locale.getD defaultLocale)
        stores.database (List.nodup_singleton row.id) row (List.mem_singleton.mpr rfl)
      rw [Option.map_some, described, ← own]
      refine (loadClientRelations_reads (by simp) _ _).bind ?_
      exact Fallible.reads_pure _

end Reads

end Loontail.Catalog
