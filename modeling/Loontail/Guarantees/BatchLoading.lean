import Loontail.Catalog.Repo

/-! # A client in a list is the client by itself

The lists load what belongs to their clients in one go. What they say of a client is what a
read of this client says, and nothing in it belongs to another. -/

namespace Loontail.Catalog

open Concurrency Relational

/-! ## Whose rows a description shows -/

/-- Everything that a description shows is of rows of the client, or of rows linked to it. -/
structure ShowsOnly (database : Database) (client : CatalogClient) (dto : ClientDto) : Prop where
  id : dto.id = idHex client.id
  text : (dto.title = "" ∧ dto.description = "" ∧ dto.shortDescription = "") ∨
    ∃ row ∈ database.locales.rows, row.clientId = client.id ∧ dto.title = row.title ∧
      dto.description = row.description.getD "" ∧
      dto.shortDescription = row.shortDescription.getD ""
  media : ∀ media, dto.background = some media ∨ dto.poster = some media ∨
      dto.titleImage = some media ∨ media ∈ dto.screenshots →
    ∃ row ∈ database.media.rows, row.clientId = client.id ∧ media = mediaDto row.row
  keywords : ∀ shown ∈ dto.keywords, ∃ link ∈ database.clientKeywords,
    ∃ keyword ∈ database.keywords.rows, link.clientId = client.id ∧
      link.keywordId = keyword.id ∧ shown.id = idHex keyword.id ∧
      (shown.title = "" ∨ ∃ row ∈ database.keywordLocales.rows,
        row.keywordId = keyword.id ∧ shown.title = row.title)
  servers : ∀ shown ∈ dto.servers, ∃ link ∈ database.clientServers,
    ∃ server ∈ database.servers.rows, link.clientId = client.id ∧
      link.serverId = server.id ∧ shown = ⟨idHex server.id, server.name, server.address⟩
  bundle : ∀ summary, dto.bundle = some summary →
    ∃ bundle ∈ database.registry.bundles.rows, client.bundleId = some bundle.id ∧
      summary = bundleSummary bundle
  bundleSlug : dto.bundleSlug = dto.bundle.map (·.slug)

section Shown

variable (database : Database) (client : CatalogClient) (locale : String)

theorem pickLocale_row {Row Text : Type} {rows : List Row} {tag : Row → String}
    {text : Row → Text} {locale : String} {picked : Text}
    (chosen : pickLocale (rows.map fun row => (tag row, text row)) locale = some picked) :
    ∃ row ∈ rows, picked = text row := by
  obtain ⟨_, member⟩ := pickLocale_mem chosen
  obtain ⟨row, among, same⟩ := List.mem_map.mp member
  exact ⟨row, among, (congrArg Prod.snd same).symm⟩

theorem resolved_own :
    resolveClientLocale (ownRelations client.row locale database).locales locale =
        ⟨"", none, none⟩ ∨
      ∃ row ∈ database.locales.rows, row.clientId = client.id ∧
        resolveClientLocale (ownRelations client.row locale database).locales locale =
          row.text := by
  rw [resolveClientLocale]
  cases chosen : pickLocale (ownRelations client.row locale database).locales locale with
  | none => exact .inl rfl
  | some picked =>
      obtain ⟨row, selected, same⟩ := pickLocale_row chosen
      obtain ⟨present, owned⟩ := List.mem_filter.mp selected
      exact .inr ⟨row, present, List.mem_singleton.mp (of_decide_eq_true owned), same⟩

theorem keywordTitle_own (keywordId : Uuid) :
    keywordTitle keywordId locale database = "" ∨ ∃ row ∈ database.keywordLocales.rows,
      row.keywordId = keywordId ∧ keywordTitle keywordId locale database = row.title := by
  rw [keywordTitle]
  cases chosen : pickLocale ((Sql.keywordLocalesOf [keywordId] database).map
      fun row => (row.locale, row.title)) locale with
  | none => exact .inl rfl
  | some picked =>
      obtain ⟨row, selected, same⟩ := pickLocale_row chosen
      obtain ⟨present, owned⟩ := List.mem_filter.mp selected
      exact .inr ⟨row, present, List.mem_singleton.mp (of_decide_eq_true owned), same⟩

theorem media_own {media : MediaDto}
    (member : media ∈ (assembleMedia (ownRelations client.row locale database).media).all) :
    ∃ row ∈ database.media.rows, row.clientId = client.id ∧ media = mediaDto row.row := by
  obtain ⟨_, among, rfl⟩ := assembleMedia_mem member
  obtain ⟨row, selected, rfl⟩ := List.mem_map.mp among
  obtain ⟨present, owned⟩ := List.mem_filter.mp ((mem_orderBy _).mp selected)
  exact ⟨row, present, List.mem_singleton.mp (of_decide_eq_true owned), rfl⟩

theorem Sql.mem_joined {Link Row : Type} {target : Link → Option Row} {links : List Link}
    {linked : Link × Row} (member : linked ∈ joined target links) :
    linked.1 ∈ links ∧ target linked.1 = some linked.2 := by
  obtain ⟨link, among, found⟩ := List.mem_filterMap.mp member
  obtain ⟨row, held, rfl⟩ := Option.map_eq_some_iff.mp found
  exact ⟨among, held⟩

theorem keywords_own {keyword : ClientKeywordBatchRow}
    (member : keyword ∈ Sql.keywordsOf [client.id] database) :
    ∃ link ∈ database.clientKeywords, ∃ row ∈ database.keywords.rows,
      link.clientId = client.id ∧ link.keywordId = row.id ∧ keyword.id = row.id := by
  obtain ⟨linked, selected, rfl⟩ := List.mem_map.mp member
  obtain ⟨among, owned⟩ := List.mem_filter.mp ((mem_orderBy _).mp selected)
  obtain ⟨link, found⟩ := Sql.mem_joined among
  obtain ⟨present, same⟩ := Table.find_eq_some.mp found
  have owner := of_decide_eq_true ((Bool.and_eq_true _ _).mp owned).1
  exact ⟨linked.1, link, linked.2, present, List.mem_singleton.mp owner, same.symm, rfl⟩

theorem servers_own {server : ServerBatchRow}
    (member : server ∈ Sql.serversOf [client.id] database) :
    ∃ link ∈ database.clientServers, ∃ row ∈ database.servers.rows,
      link.clientId = client.id ∧ link.serverId = row.id ∧
      serverDto server = ⟨idHex row.id, row.name, row.address⟩ := by
  obtain ⟨linked, selected, rfl⟩ := List.mem_map.mp member
  obtain ⟨among, owned⟩ := List.mem_filter.mp ((mem_orderBy _).mp selected)
  obtain ⟨link, found⟩ := Sql.mem_joined among
  obtain ⟨present, same⟩ := Table.find_eq_some.mp found
  have owner := of_decide_eq_true ((Bool.and_eq_true _ _).mp owned).1
  exact ⟨linked.1, link, linked.2, present, List.mem_singleton.mp owner, same.symm, rfl⟩

theorem described_shows (asked : CatalogQuery) :
    ShowsOnly database client (described asked database client.row) where
  id := rfl
  text := by
    rcases resolved_own database client (asked.locale.getD defaultLocale) with
      blank | ⟨row, present, owned, same⟩
    · refine .inl ⟨congrArg ClientLocaleRow.title blank, ?_, ?_⟩
      · exact congrArg (fun text => text.description.getD "") blank
      · exact congrArg (fun text => text.shortDescription.getD "") blank
    · refine .inr ⟨row, present, owned, congrArg ClientLocaleRow.title same, ?_, ?_⟩
      · exact congrArg (fun text => text.description.getD "") same
      · exact congrArg (fun text => text.shortDescription.getD "") same
  media := by
    intro media shown
    refine media_own database client (asked.locale.getD defaultLocale) ?_
    simp only [AssembledMedia.all, List.mem_append, Option.mem_toList]
    rcases shown with background | poster | titleImage | screenshot
    · exact .inl (.inl (.inl background))
    · exact .inl (.inl (.inr poster))
    · exact .inl (.inr titleImage)
    · exact .inr screenshot
  keywords := by
    intro shown member
    obtain ⟨keyword, selected, rfl⟩ := List.mem_map.mp member
    obtain ⟨link, linked, row, present, owner, target, same⟩ :=
      keywords_own database client selected
    refine ⟨link, linked, row, present, owner, target, congrArg idHex same, ?_⟩
    rw [← same]
    exact keywordTitle_own database _ keyword.id
  servers := by
    intro shown member
    obtain ⟨server, selected, rfl⟩ := List.mem_map.mp member
    exact servers_own database client selected
  bundle := by
    intro summary shown
    obtain ⟨bundle, held, rfl⟩ := Option.map_eq_some_iff.mp shown
    obtain ⟨bundleId, linked, found⟩ := Option.bind_eq_some_iff.mp held
    obtain ⟨present, rfl⟩ := Table.find_eq_some.mp found
    exact ⟨bundle, present, linked, rfl⟩
  bundleSlug := rfl

end Shown

/-! ## What is selected -/

section Selected

variable {database : Database} {client : CatalogClient}

theorem mem_listPublished {row : ClientRow} :
    row ∈ Sql.listPublished database ↔
      ∃ client ∈ database.clients.rows, client.publishedAt.isSome ∧ client.row = row := by
  simp only [Sql.listPublished, List.mem_map, mem_orderBy, List.mem_filter, and_assoc]

theorem mem_listAll {row : ClientAdminRow} :
    row ∈ Sql.listAll database ↔ ∃ client ∈ database.clients.rows,
      (⟨client.row, client.publishedAt.isSome⟩ : ClientAdminRow) = row := by
  simp only [Sql.listAll, List.mem_map, mem_orderBy]

theorem exists_of_publishedClient {id : Option Uuid} {slug : String} {row : ClientRow}
    (selected : Sql.publishedClient id slug database = some row) :
    ∃ client ∈ database.clients.rows, client.publishedAt.isSome ∧ client.row = row := by
  obtain ⟨client, first, rfl⟩ := Option.map_eq_some_iff.mp selected
  obtain ⟨present, meets⟩ := List.mem_filter.mp
    ((mem_orderBy _).mp (List.mem_of_head? first))
  exact ⟨client, present, ((Bool.and_eq_true _ _).mp meets).1, rfl⟩

theorem publishedClient_of_id (member : client ∈ database.clients.rows)
    (published : client.publishedAt.isSome) (slug : String) :
    Sql.publishedClient (some client.id) slug database = some client.row := by
  rw [Sql.publishedClient, Sql.publishedByIdent]
  have among : client ∈ database.clients.rows.filter fun row => row.publishedAt.isSome &&
      (some row.id = some client.id || row.slug = slug) :=
    List.mem_filter.mpr ⟨member, by simp [published]⟩
  have chosen := (mem_orderBy fun row : CatalogClient =>
    decide (some row.id ≠ some client.id)).mpr among
  cases first : (orderBy (fun row : CatalogClient => decide (some row.id ≠ some client.id))
      (database.clients.rows.filter fun row => row.publishedAt.isSome &&
        (some row.id = some client.id || row.slug = slug))).head? with
  | none =>
      rw [List.head?_eq_none_iff.mp first] at chosen
      cases chosen
  | some head =>
      have least := orderBy_head_le _ first among
      have same : head.id = client.id := by
        by_contra different
        simp only [ne_eq, Option.some.injEq, different, not_false_eq_true, decide_true,
          not_true_eq_false, decide_false] at least
        exact absurd least (by decide)
      have present := List.mem_filter.mp ((mem_orderBy _).mp (List.mem_of_head? first))
      rw [Table.eq_of_key_eq present.1 member same]
      rfl

end Selected

/-! ## Agreement -/

structure Agree (service : Service) (asked : CatalogQuery) (client : CatalogClient)
    (dto : ClientDto) : Prop where
  shows : ShowsOnly service.database client dto
  loaded : ∀ parse ident, parse ident = some client.id →
    (loadClient parse ident asked).answered [] service = some (some dto)
  alone : ∀ parse ident faults single,
    (loadClient parse ident asked).answered faults service = some (some single) →
    single.id = idHex client.id → single = dto
  listed : ∀ faults list, (listClients asked).answered faults service = some list →
    dto ∈ list ∧ ∀ element ∈ list, element.id = idHex client.id → element = dto
  administered : ∀ faults list, (listClientsAdmin asked).answered faults service = some list →
    ⟨dto, true⟩ ∈ list ∧
      ∀ element ∈ list, element.client.id = idHex client.id → element = ⟨dto, true⟩

theorem ready_catalog (state : catalog.State) (operation : catalog.Operation) :
    catalog.ready state operation = true := rfl

theorem described_agrees {service : Service} (asked : CatalogQuery) {client : CatalogClient}
    (member : client ∈ service.database.clients.rows) (published : client.publishedAt.isSome) :
    Agree service asked client (described asked service.database client.row) where
  shows := described_shows service.database client asked
  loaded := by
    intro parse ident parsed
    rw [(loadClient_reads asked parse ident).answered ready_catalog, parsed,
      publishedClient_of_id member published]
    rfl
  alone := by
    intro parse ident faults single answer same
    have read := (loadClient_reads asked parse ident).of_answered answer
    obtain ⟨row, selected, rfl⟩ := Option.map_eq_some_iff.mp read.symm
    obtain ⟨other, present, -, rfl⟩ := exists_of_publishedClient selected
    rw [Table.eq_of_key_eq present member (idHex_injective same)]
  listed := by
    intro faults list answer
    rw [(listClients_reads asked).of_answered answer]
    refine ⟨List.mem_map_of_mem (mem_listPublished.mpr ⟨client, member, published, rfl⟩), ?_⟩
    intro element among same
    obtain ⟨row, selected, rfl⟩ := List.mem_map.mp among
    obtain ⟨other, present, -, rfl⟩ := mem_listPublished.mp selected
    rw [Table.eq_of_key_eq present member (idHex_injective same)]
  administered := by
    intro faults list answer
    rw [(listClientsAdmin_reads asked).of_answered answer]
    refine ⟨List.mem_map.mpr ⟨⟨client.row, true⟩, mem_listAll.mpr ⟨client, member, ?_⟩, rfl⟩, ?_⟩
    · rw [published]
    · intro element among same
      obtain ⟨row, selected, rfl⟩ := List.mem_map.mp among
      obtain ⟨other, present, rfl⟩ := mem_listAll.mp selected
      rw [Table.eq_of_key_eq present member (idHex_injective same), published]

/-- The three reads agree on every published client, and no description, of a draft neither,
shows what belongs to another client. -/
theorem batch_agrees_with_single (service : Service) (asked : CatalogQuery) :
    (∀ client ∈ service.database.clients.rows, client.publishedAt.isSome →
      ∃ dto, Agree service asked client dto) ∧
    (∀ faults list, (listClients asked).answered faults service = some list →
      ∀ element ∈ list, ∃ client ∈ service.database.clients.rows,
        client.publishedAt.isSome ∧ ShowsOnly service.database client element) ∧
    (∀ faults list, (listClientsAdmin asked).answered faults service = some list →
      ∀ element ∈ list, ∃ client ∈ service.database.clients.rows,
        element.published = client.publishedAt.isSome ∧
          ShowsOnly service.database client element.client) ∧
    ((listClients asked).answered [] service).isSome ∧
    ((listClientsAdmin asked).answered [] service).isSome := by
  refine ⟨?_, ?_, ?_, ?_, ?_⟩
  · intro client member published
    exact ⟨_, described_agrees asked member published⟩
  · intro faults list answer element among
    rw [(listClients_reads asked).of_answered answer] at among
    obtain ⟨row, selected, rfl⟩ := List.mem_map.mp among
    obtain ⟨client, member, published, rfl⟩ := mem_listPublished.mp selected
    exact ⟨client, member, published, described_shows service.database client asked⟩
  · intro faults list answer element among
    rw [(listClientsAdmin_reads asked).of_answered answer] at among
    obtain ⟨row, selected, rfl⟩ := List.mem_map.mp among
    obtain ⟨client, member, rfl⟩ := mem_listAll.mp selected
    exact ⟨client, member, rfl, described_shows service.database client asked⟩
  · rw [(listClients_reads asked).answered ready_catalog]
    rfl
  · rw [(listClientsAdmin_reads asked).answered ready_catalog]
    rfl

end Loontail.Catalog
