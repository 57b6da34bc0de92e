import Loontail.Catalog.Selections

/-! # What the launcher sees of a client

A client is described by its row and by what was loaded for it beside the row. -/

namespace Loontail.Catalog

open Relational
open Bundles (Bundle BundleStatus)

/-! ## On the wire -/

structure MediaDto where
  url : String
  width : Option Int
  height : Option Int
  deriving DecidableEq, Repr

structure BundleSummaryDto where
  slug : String
  version : Option String
  status : BundleStatus
  filesCount : Int
  manifestUrl : String
  deriving DecidableEq, Repr

structure KeywordDto where
  id : String
  title : String
  deriving DecidableEq, Repr

structure ServerDto where
  id : String
  name : Option String
  address : String
  deriving DecidableEq, Repr

structure ClientDto where
  id : String
  slug : String
  title : String
  description : String
  shortDescription : String
  available : Bool
  minecraftVersion : Option String
  forgeVersion : Option String
  fabricVersion : Option String
  runtimeVersion : Option String
  bundleSlug : Option String
  background : Option MediaDto
  poster : Option MediaDto
  titleImage : Option MediaDto
  screenshots : List MediaDto
  keywords : List KeywordDto
  servers : List ServerDto
  bundle : Option BundleSummaryDto
  deriving DecidableEq, Repr

structure ClientAdminDto where
  client : ClientDto
  published : Bool
  deriving DecidableEq, Repr

structure CatalogQuery where
  locale : Option String
  deriving DecidableEq, Repr

def bundleSummary (bundle : Bundle) : BundleSummaryDto where
  slug := bundle.slug
  version := bundle.version
  status := bundle.status
  filesCount := bundle.filesCount
  manifestUrl := "/api/bundle-registry/builds/" ++ bundle.slug ++ "/manifest"

def serverDto (row : ServerBatchRow) : ServerDto := ⟨idHex row.id, row.name, row.address⟩

/-! ## Texts -/

/-- `DEFAULT_LOCALE`. -/
def defaultLocale : String := "en"

/-- The requested locale, else the default one, else the first there is. -/
def pickLocale {Text : Type} (rows : List (String × Text)) (requested : String) : Option Text :=
  (((rows.find? fun row => row.1 = requested).or
    (rows.find? fun row => row.1 = defaultLocale)).or rows.head?).map (·.2)

theorem pickLocale_mem {Text : Type} {rows : List (String × Text)} {requested : String}
    {text : Text} (picked : pickLocale rows requested = some text) :
    ∃ locale, (locale, text) ∈ rows := by
  obtain ⟨⟨locale, _⟩, chosen, rfl⟩ := Option.map_eq_some_iff.mp picked
  refine ⟨locale, ?_⟩
  rcases Option.or_eq_some_iff.mp chosen with found | ⟨-, first⟩
  · rcases Option.or_eq_some_iff.mp found with exact | ⟨-, fallback⟩
    · exact List.mem_of_find?_eq_some exact
    · exact List.mem_of_find?_eq_some fallback
  · exact List.mem_of_head? first

example : pickLocale [("ru", 1), ("en", 2)] "de" = some 2 := by decide

structure ClientLocaleRow where
  title : String
  description : Option String
  shortDescription : Option String
  deriving DecidableEq, Repr

def ClientLocale.text (row : ClientLocale) : ClientLocaleRow where
  title := row.title
  description := row.description
  shortDescription := row.shortDescription

def resolveClientLocale (rows : List (String × ClientLocaleRow)) (requested : String) :
    ClientLocaleRow :=
  (pickLocale rows requested).getD ⟨"", none, none⟩

/-! ## Media -/

structure MediaRow where
  role : MediaRole
  url : String
  width : Option Int
  height : Option Int
  deriving DecidableEq, Repr

def CatalogMedia.row (media : CatalogMedia) : MediaRow where
  role := media.role
  url := media.url
  width := media.width
  height := media.height

def mediaDto (row : MediaRow) : MediaDto := ⟨row.url, row.width, row.height⟩

structure AssembledMedia where
  background : Option MediaDto
  poster : Option MediaDto
  titleImage : Option MediaDto
  screenshots : List MediaDto
  deriving DecidableEq, Repr

/-- The first row of a role has its slot, and every screenshot is kept. -/
def AssembledMedia.fold (slots : AssembledMedia) (row : MediaRow) : AssembledMedia :=
  match row.role with
  | .background => { slots with background := slots.background.or (some (mediaDto row)) }
  | .poster => { slots with poster := slots.poster.or (some (mediaDto row)) }
  | .titleImage => { slots with titleImage := slots.titleImage.or (some (mediaDto row)) }
  | .screenshot => { slots with screenshots := slots.screenshots ++ [mediaDto row] }

def assembleMedia (rows : List MediaRow) : AssembledMedia :=
  rows.foldl AssembledMedia.fold ⟨none, none, none, []⟩

def AssembledMedia.all (slots : AssembledMedia) : List MediaDto :=
  slots.background.toList ++ slots.poster.toList ++ slots.titleImage.toList ++ slots.screenshots

theorem AssembledMedia.mem_fold {slots : AssembledMedia} {row : MediaRow} {media : MediaDto}
    (member : media ∈ (slots.fold row).all) : media ∈ slots.all ∨ media = mediaDto row := by
  obtain ⟨background, poster, titleImage, screenshots⟩ := slots
  unfold fold at member
  split at member
  · cases background <;> simp [all] at member ⊢ <;> tauto
  · cases poster <;> simp [all] at member ⊢ <;> tauto
  · cases titleImage <;> simp [all] at member ⊢ <;> tauto
  · simp [all] at member ⊢
    tauto

theorem assembleMedia_mem {rows : List MediaRow} {media : MediaDto}
    (member : media ∈ (assembleMedia rows).all) : ∃ row ∈ rows, media = mediaDto row := by
  suffices started : ∀ slots : AssembledMedia, media ∈ (rows.foldl AssembledMedia.fold slots).all →
      media ∈ slots.all ∨ ∃ row ∈ rows, media = mediaDto row from
    (started _ member).resolve_left (by simp [AssembledMedia.all])
  clear member
  induction rows with
  | nil => exact fun slots present => .inl present
  | cons row rest induction =>
      intro slots present
      rcases induction (slots.fold row) present with before | ⟨later, among, same⟩
      · rcases AssembledMedia.mem_fold before with earlier | same
        · exact .inl earlier
        · exact .inr ⟨row, List.mem_cons_self, same⟩
      · exact .inr ⟨later, List.mem_cons_of_mem row among, same⟩

/-! ## A client -/

structure OwnRelations where
  locales : List (String × ClientLocaleRow)
  media : List MediaRow
  keywords : List KeywordDto
  servers : List ServerDto
  bundle : Option BundleSummaryDto
  deriving DecidableEq, Repr

def describe (row : ClientRow) (own : OwnRelations) (locale : String) : ClientDto :=
  let text := resolveClientLocale own.locales locale
  let media := assembleMedia own.media
  { id := idHex row.id
    slug := row.slug
    title := text.title
    description := text.description.getD ""
    shortDescription := text.shortDescription.getD ""
    available := row.available
    minecraftVersion := row.minecraftVersion
    forgeVersion := row.forgeVersion
    fabricVersion := row.fabricVersion
    runtimeVersion := row.runtimeVersion
    bundleSlug := own.bundle.map (·.slug)
    background := media.background
    poster := media.poster
    titleImage := media.titleImage
    screenshots := media.screenshots
    keywords := own.keywords
    servers := own.servers
    bundle := own.bundle }

structure ClientRelations where
  locales : Groups Uuid (String × ClientLocaleRow)
  media : Groups Uuid MediaRow
  keywords : Groups Uuid KeywordDto
  servers : Groups Uuid ServerDto
  bundles : AList fun _ : Uuid => BundleSummaryDto

namespace ClientRelations

def empty : ClientRelations := ⟨∅, ∅, ∅, ∅, ∅⟩

def ofClient (relations : ClientRelations) (id : Uuid) : OwnRelations where
  locales := relations.locales.group id
  media := relations.media.group id
  keywords := relations.keywords.group id
  servers := relations.servers.group id
  bundle := relations.bundles.lookup id

def without (relations : ClientRelations) (id : Uuid) : ClientRelations where
  locales := relations.locales.erase id
  media := relations.media.erase id
  keywords := relations.keywords.erase id
  servers := relations.servers.erase id
  bundles := relations.bundles.erase id

theorem ofClient_without {relations : ClientRelations} {id other : Uuid} (different : other ≠ id) :
    (relations.without id).ofClient other = relations.ofClient other := by
  simp only [ofClient, without, Groups.group_erase_ne different, AList.lookup_erase_ne different]

end ClientRelations

/-- Each `remove` takes what is the client's out of the relations. -/
def assembleClientDto (row : ClientRow) (relations : ClientRelations) (locale : String) :
    ClientDto × ClientRelations :=
  (describe row (relations.ofClient row.id) locale, relations.without row.id)

/-- `rows.map(|row| …)`, with the relations that one row leaves to the next. -/
def assembleClients {Row Dto : Type} (client : Row → ClientRow) (finish : Row → ClientDto → Dto)
    (locale : String) : List Row → ClientRelations → List Dto
  | [], _ => []
  | row :: rest, relations =>
      let (dto, relations) := assembleClientDto (client row) relations locale
      finish row dto :: assembleClients client finish locale rest relations

/-- Where no client comes twice, what one takes is not missed by another. -/
theorem assembleClients_eq {Row Dto : Type} {client : Row → ClientRow}
    {finish : Row → ClientDto → Dto} {locale : String} {rows : List Row}
    {relations : ClientRelations} (apart : (rows.map fun row => (client row).id).Nodup) :
    assembleClients client finish locale rows relations =
      rows.map fun row =>
        finish row (describe (client row) (relations.ofClient (client row).id) locale) := by
  induction rows generalizing relations with
  | nil => rfl
  | cons row rest induction =>
      obtain ⟨absent, others⟩ := List.nodup_cons.mp apart
      refine congrArg (List.cons _) ((induction others).trans ?_)
      refine List.map_congr_left fun other member => ?_
      rw [ClientRelations.ofClient_without]
      intro same
      exact absent (List.mem_map.mpr ⟨other, member, same⟩)

end Loontail.Catalog
