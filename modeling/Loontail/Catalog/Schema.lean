import Loontail.Bundles.Schema
import Loontail.Core.Text
import Mathlib.Data.Nat.Digits.Lemmas

/-! # The tables of the catalog

A client is one entry of the launcher, with its texts by locale, its media, and the
keywords and servers it is linked to. It may link to a bundle of the registry. Columns that
no handler reads are left out. -/

namespace Loontail.Catalog

open Relational

/-! ## Identifiers on the wire -/

/-- `id.simple()`: hexadecimal digits without dashes, 32 of them. -/
def idHex (id : Uuid) : String :=
  let digits := Nat.digits 16 id
  .ofList ((digits ++ List.replicate (32 - digits.length) 0).map Nat.digitChar).reverse

example : idHex 255 = "000000000000000000000000000000ff" := by decide +kernel

theorem hexValue_digitChar : ∀ digit < 16, Text.hexValue (Nat.digitChar digit) = digit := by
  decide +kernel

theorem idHex_injective {left right : Uuid} (same : idHex left = idHex right) : left = right := by
  have read : ∀ id : Uuid, ((Nat.digits 16 id ++ List.replicate
      (32 - (Nat.digits 16 id).length) 0).map Nat.digitChar).map Text.hexValue =
      Nat.digits 16 id ++ List.replicate (32 - (Nat.digits 16 id).length) 0 := by
    intro id
    rw [List.map_map]
    refine (List.map_congr_left fun digit member => ?_).trans (List.map_id _)
    refine hexValue_digitChar digit ?_
    rcases List.mem_append.mp member with present | zero
    · exact Nat.digits_lt_base (by decide) present
    · rw [List.eq_of_mem_replicate zero]
      decide
  have digits := congrArg (List.map Text.hexValue)
    (List.reverse_injective (String.ofList_injective same))
  rw [read, read] at digits
  have value := congrArg (Nat.ofDigits 16) digits
  rwa [Nat.ofDigits_append_replicate_zero, Nat.ofDigits_append_replicate_zero,
    Nat.ofDigits_digits, Nat.ofDigits_digits] at value

/-! ## Rows -/

structure CatalogClient where
  id : Uuid
  slug : String
  available : Bool
  minecraftVersion : Option String
  forgeVersion : Option String
  fabricVersion : Option String
  runtimeVersion : Option String
  bundleSlug : Option String
  bundleId : Option Uuid
  sortOrder : Int
  publishedAt : Option Timestamp
  createdAt : Timestamp
  deriving DecidableEq, Repr

@[reducible] def clientLayout : Layout CatalogClient Uuid String where
  key := CatalogClient.id
  slot := fun client => some client.slug

structure ClientLocale where
  id : Uuid
  clientId : Uuid
  locale : String
  title : String
  description : Option String
  shortDescription : Option String
  deriving DecidableEq, Repr

/-- `UNIQUE (client_id, locale)`. -/
@[reducible] def clientLocaleLayout : Layout ClientLocale Uuid (Uuid × String) where
  key := ClientLocale.id
  slot := fun row => some (row.clientId, row.locale)

/-- The roles that the table's check allows. -/
inductive MediaRole where
  | poster
  | background
  | titleImage
  | screenshot
  deriving DecidableEq, Repr

structure CatalogMedia where
  id : Uuid
  clientId : Uuid
  role : MediaRole
  url : String
  width : Option Int
  height : Option Int
  sortOrder : Int
  createdAt : Timestamp
  deriving DecidableEq, Repr

@[reducible] def mediaLayout : Layout CatalogMedia Uuid Empty where
  key := CatalogMedia.id
  slot := fun _ => none

structure CatalogKeyword where
  id : Uuid
  slug : String
  publishedAt : Option Timestamp
  createdAt : Timestamp
  deriving DecidableEq, Repr

@[reducible] def keywordLayout : Layout CatalogKeyword Uuid String where
  key := CatalogKeyword.id
  slot := fun keyword => some keyword.slug

structure KeywordLocale where
  id : Uuid
  keywordId : Uuid
  locale : String
  title : String
  deriving DecidableEq, Repr

@[reducible] def keywordLocaleLayout : Layout KeywordLocale Uuid (Uuid × String) where
  key := KeywordLocale.id
  slot := fun row => some (row.keywordId, row.locale)

structure CatalogServer where
  id : Uuid
  slug : String
  name : Option String
  address : String
  publishedAt : Option Timestamp
  createdAt : Timestamp
  deriving DecidableEq, Repr

@[reducible] def serverLayout : Layout CatalogServer Uuid String where
  key := CatalogServer.id
  slot := fun server => some server.slug

structure ClientKeyword where
  clientId : Uuid
  keywordId : Uuid
  sortOrder : Int
  deriving DecidableEq, Repr

structure ClientServer where
  clientId : Uuid
  serverId : Uuid
  sortOrder : Int
  deriving DecidableEq, Repr

/-! ## The database -/

/-- `REFERENCES bundles (id)`. -/
def LinkedTo (registry : Bundles.Database) (client : CatalogClient) : Prop :=
  ∀ bundleId, client.bundleId = some bundleId → (registry.bundles.find bundleId).isSome

/-- The tables of the catalog next to those of the registry: a client links to a bundle
that is there. -/
structure Database where
  registry : Bundles.Database
  clients : Table clientLayout
  locales : Table clientLocaleLayout
  media : Table mediaLayout
  keywords : Table keywordLayout
  keywordLocales : Table keywordLocaleLayout
  servers : Table serverLayout
  clientKeywords : List ClientKeyword
  clientServers : List ClientServer
  linked : ∀ client ∈ clients.rows, LinkedTo registry client

def Database.empty : Database where
  registry := .empty
  clients := .empty
  locales := .empty
  media := .empty
  keywords := .empty
  keywordLocales := .empty
  servers := .empty
  clientKeywords := []
  clientServers := []
  linked := by
    intro client member
    cases member

end Loontail.Catalog
