import Loontail.Catalog.Dto
import Loontail.Catalog.Upserts
import Mathlib.Logic.Function.Basic

/-! # The catalog as a shelf

What the administrators put on it is what the launchers find. Each entry has fields of its own, a
text for every locale that has one, and the slug of its bundle. -/

namespace Loontail.Catalog

open Concurrency Relational
open Text (trim)

/-! ## Entries -/

structure Entry where
  slug : String
  available : Bool
  minecraftVersion : Option String
  forgeVersion : Option String
  fabricVersion : Option String
  runtimeVersion : Option String
  sortOrder : Int
  publishedAt : Option Timestamp
  createdAt : Timestamp
  texts : String → Option ClientLocaleRow
  bundle : Option String

def UpsertClient.ownedSlug (body : UpsertClient) (current : Option String) : String :=
  (requestedBundleSlug body).getD
    (if body.bundleSlug = none then current.getD (trim body.fields.slug)
    else trim body.fields.slug)

def ClientLocaleInput.text (input : ClientLocaleInput) : ClientLocaleRow where
  title := input.title
  description := input.description
  shortDescription := input.shortDescription

namespace Entry

def blank (now : Timestamp) (publish : Bool) : Entry where
  slug := ""
  available := false
  minecraftVersion := none
  forgeVersion := none
  fabricVersion := none
  runtimeVersion := none
  sortOrder := 0
  publishedAt := if publish then some now else none
  createdAt := now
  texts := fun _ => none
  bundle := none

def setFields (fields : ClientFields) (entry : Entry) : Entry :=
  { entry with
    slug := fields.slug
    available := fields.available
    minecraftVersion := fields.minecraftVersion
    forgeVersion := fields.forgeVersion
    fabricVersion := fields.fabricVersion
    runtimeVersion := fields.runtimeVersion
    sortOrder := fields.sortOrder.getD entry.sortOrder }

def write (entry : Entry) (input : ClientLocaleInput) : Entry :=
  { entry with texts := Function.update entry.texts input.locale (some input.text) }

/-- Of two texts for one locale the later one stays. -/
def writeAll (locales : List ClientLocaleInput) (entry : Entry) : Entry :=
  locales.foldl write entry

def keepOnly (locales : List String) (entry : Entry) : Entry :=
  { entry with texts := fun locale => if locale ∈ locales then entry.texts locale else none }

def link (slug : String) (entry : Entry) : Entry := { entry with bundle := some slug }

def unlink (slug : String) (entry : Entry) : Entry :=
  if entry.bundle = some slug then { entry with bundle := none } else entry

def publish (publishedAt : Option Timestamp) (entry : Entry) : Entry := { entry with publishedAt }

def dropOthers (body : UpsertClient) (entry : Entry) : Entry :=
  if body.replaceLocales then entry.keepOnly (body.locales.map (·.locale)) else entry

def create (now : Timestamp) (body : UpsertClient) : Entry :=
  (((blank now (body.publish = some true)).setFields body.fields).writeAll body.locales).link
    (body.ownedSlug none)

def update (body : UpsertClient) (entry : Entry) : Entry :=
  (((entry.setFields body.fields).writeAll body.locales).dropOthers body).link
    (body.ownedSlug entry.bundle)

end Entry

/-! ## The shelf -/

abbrev Shelf := Uuid → Option Entry

namespace Shelf

def revise (id : Uuid) (change : Entry → Entry) (shelf : Shelf) : Shelf := fun other =>
  if other = id then (shelf other).map change else shelf other

def place (id : Uuid) (entry : Entry) (shelf : Shelf) : Shelf :=
  Function.update shelf id (some entry)

/-- A bundle goes with its client, whichever other entries have it too. -/
def take (id : Uuid) (shelf : Shelf) : Shelf := fun other =>
  if other = id then none
  else
    match (shelf id).bind (·.bundle) with
    | some slug => (shelf other).map (Entry.unlink slug)
    | none => shelf other

variable {id : Uuid} {shelf : Shelf}

theorem revise_revise (first second : Entry → Entry) :
    (shelf.revise id first).revise id second = shelf.revise id (second ∘ first) := by
  funext other
  unfold revise
  split
  · rw [Option.map_map]
  · rfl

theorem revise_id : shelf.revise id (fun entry => entry) = shelf := by
  funext other
  unfold revise
  split
  · exact Option.map_id'
  · rfl

theorem revise_congr {first second : Entry → Entry} {entry : Entry} (there : shelf id = some entry)
    (same : first entry = second entry) : shelf.revise id first = shelf.revise id second := by
  funext other
  unfold revise
  split
  · rename_i here
    rw [here, there, Option.map_some, Option.map_some, same]
  · rfl

theorem revise_absent (absent : shelf id = none) (change : Entry → Entry) :
    shelf.revise id change = shelf := by
  funext other
  unfold revise
  split
  · rename_i here
    rw [here, absent, Option.map_none]
  · rfl

theorem revise_place (entry : Entry) (change : Entry → Entry) :
    (shelf.place id entry).revise id change = shelf.place id (change entry) := by
  funext other
  unfold revise place
  split
  · rename_i here
    rw [here, Function.update_self, Function.update_self, Option.map_some]
  · rename_i apart
    rw [Function.update_of_ne apart, Function.update_of_ne apart]

theorem take_of_linked {entry : Entry} {slug : String} (there : shelf id = some entry)
    (linked : entry.bundle = some slug) : shelf.take id = fun other =>
      (if other = id then none else shelf other).map (Entry.unlink slug) := by
  funext other
  unfold take
  split
  · rfl
  · simp only [there, Option.bind_some, linked]

theorem take_of_unlinked {entry : Entry} (there : shelf id = some entry)
    (unlinked : entry.bundle = none) :
    shelf.take id = fun other => if other = id then none else shelf other := by
  funext other
  unfold take
  split
  · rfl
  · simp only [there, Option.bind_some, unlinked]

end Shelf

/-! ## What may be asked, and what is shown -/

inductive CatalogRequest where
  | client (request : ClientRequest)
  | publish (now : Timestamp) (id : Uuid)
  | unpublish (id : Uuid)
  deriving DecidableEq, Repr

/-- Where the rows are written, an error can only say that a new folder is missing. -/
def Told : Except AppError Unit → Prop
  | .ok () => True
  | .error error => ∃ text, error = .internal text

namespace Shelf

inductive Turn (shelf : Shelf) : CatalogRequest → Except AppError Unit → Shelf → Prop
  | refused {request : CatalogRequest} {error : AppError} : Turn shelf request (.error error) shelf
  | created {now : Timestamp} {body : UpsertClient} {answer : Except AppError Unit} {id : Uuid}
      (free : shelf id = none) (told : Told answer) :
      Turn shelf (.client (.create now body)) answer (shelf.place id (Entry.create now body))
  | updated {id : Uuid} {body : UpsertClient} {answer : Except AppError Unit}
      (there : (shelf id).isSome) (told : Told answer) :
      Turn shelf (.client (.update id body)) answer (shelf.revise id (Entry.update body))
  | deleted {id : Uuid} (there : (shelf id).isSome) :
      Turn shelf (.client (.delete id)) (.ok ()) (shelf.take id)
  | published {now : Timestamp} {id : Uuid} (there : (shelf id).isSome) :
      Turn shelf (.publish now id) (.ok ()) (shelf.revise id (Entry.publish (some now)))
  | unpublished {id : Uuid} (there : (shelf id).isSome) :
      Turn shelf (.unpublish id) (.ok ()) (shelf.revise id (Entry.publish none))

inductive Follows : Shelf → List (CatalogRequest × Except AppError Unit) → Shelf → Prop
  | nil {shelf : Shelf} : Follows shelf [] shelf
  | cons {shelf next final : Shelf} {request : CatalogRequest} {answer : Except AppError Unit}
      {later : List (CatalogRequest × Except AppError Unit)} (turn : Turn shelf request answer next)
      (rest : Follows next later final) : Follows shelf ((request, answer) :: later) final

end Shelf

namespace Entry

/-- `ORDER BY sort_order, created_at`. -/
def rank (entry : Entry) : Int ×ₗ Timestamp := toLex (entry.sortOrder, entry.createdAt)

/-- The text for a locale. Which of its texts an entry falls back on is open where it has one
neither for the locale nor for the default one. -/
def Speaks (entry : Entry) (locale : String) (shown : ClientLocaleRow) : Prop :=
  match entry.texts locale, entry.texts defaultLocale with
  | some text, _ => shown = text
  | none, some text => shown = text
  | none, none => (∃ other, entry.texts other = some shown) ∨
      (∀ other, entry.texts other = none) ∧ shown = ⟨"", none, none⟩

structure Shows (id : Uuid) (asked : CatalogQuery) (entry : Entry) (dto : ClientDto) : Prop where
  id : dto.id = idHex id
  slug : dto.slug = entry.slug
  available : dto.available = entry.available
  versions : dto.minecraftVersion = entry.minecraftVersion ∧ dto.forgeVersion = entry.forgeVersion ∧
    dto.fabricVersion = entry.fabricVersion ∧ dto.runtimeVersion = entry.runtimeVersion
  text : ∃ text, entry.Speaks (asked.locale.getD defaultLocale) text ∧ dto.title = text.title ∧
    dto.description = text.description.getD "" ∧
    dto.shortDescription = text.shortDescription.getD ""
  bundle : dto.bundleSlug = entry.bundle

end Entry

namespace Shelf

/-- A list shows every published entry once, in the order of their ranks. -/
structure Lists (shelf : Shelf) (asked : CatalogQuery) (shown : List (Uuid × Entry))
    (dtos : List ClientDto) : Prop where
  apart : (shown.map Prod.fst).Nodup
  published : ∀ id entry, (id, entry) ∈ shown ↔
    shelf id = some entry ∧ entry.publishedAt.isSome
  ordered : shown.Pairwise fun earlier later => earlier.2.rank ≤ later.2.rank
  shows : List.Forall₂ (fun here dto => here.2.Shows here.1 asked dto) shown dtos

/-- A published entry is found by its id or by its slug, and by its id where both lead to one. -/
def Finds (shelf : Shelf) (asked : CatalogQuery) (named : Option Uuid) (ident : String) :
    Option ClientDto → Prop
  | some dto => ∃ id entry, shelf id = some entry ∧ entry.publishedAt.isSome ∧
      entry.Shows id asked dto ∧ (named = some id ∨ entry.slug = ident) ∧
      ∀ other there, shelf other = some there → there.publishedAt.isSome → named = some other →
        other = id
  | none => ∀ id entry, shelf id = some entry → entry.publishedAt.isSome →
      named ≠ some id ∧ entry.slug ≠ ident

end Shelf

/-! ## What the tables say of the shelf -/

namespace Database

variable (database : Database)

def textOf (id : Uuid) (locale : String) : Option ClientLocaleRow :=
  (database.locales.rows.find? fun row => row.clientId = id && row.locale = locale).map
    ClientLocale.text

def slugOf (bundleId : Option Uuid) : Option String :=
  bundleId.bind fun bundleId => (database.registry.bundles.find bundleId).map (·.slug)

def entryOf (client : CatalogClient) : Entry where
  slug := client.slug
  available := client.available
  minecraftVersion := client.minecraftVersion
  forgeVersion := client.forgeVersion
  fabricVersion := client.fabricVersion
  runtimeVersion := client.runtimeVersion
  sortOrder := client.sortOrder
  publishedAt := client.publishedAt
  createdAt := client.createdAt
  texts := database.textOf client.id
  bundle := database.slugOf client.bundleId

def shelf : Shelf := fun id => (database.clients.find id).map database.entryOf

/-- `REFERENCES catalog_clients (id)`: a text belongs to a client that is there. -/
def Housed : Prop :=
  ∀ row ∈ database.locales.rows, (database.clients.find row.clientId).isSome

end Database

structure Alters (effect : Shelf → Shelf) (before after : Database) : Prop where
  shelf : after.shelf = effect before.shelf
  housed : before.Housed → after.Housed

namespace Alters

variable {first second third : Database} {early late : Shelf → Shelf}

theorem refl (database : Database) : Alters (fun shelf => shelf) database database :=
  ⟨rfl, fun housed => housed⟩

theorem trans (earlier : Alters early first second) (later : Alters late second third) :
    Alters (fun shelf => late (early shelf)) first third where
  shelf := by rw [later.shelf, earlier.shelf]
  housed := fun housed => later.housed (earlier.housed housed)

end Alters

/-! ## Which parts of the tables an entry is made of -/

section Parts

variable {before after : Database} {id : Uuid}

theorem textOf_congr (locales : after.locales = before.locales) : after.textOf = before.textOf := by
  funext other locale
  rw [Database.textOf, Database.textOf, locales]

theorem slugOf_congr (registry : after.registry = before.registry) :
    after.slugOf = before.slugOf := by
  funext bundleId
  rw [Database.slugOf, Database.slugOf, registry]

theorem entryOf_congr {client : CatalogClient}
    (texts : after.textOf client.id = before.textOf client.id)
    (link : after.slugOf client.bundleId = before.slugOf client.bundleId) :
    after.entryOf client = before.entryOf client := by
  simp only [Database.entryOf, texts, link]

theorem shelf_of_same (clients : after.clients = before.clients)
    (locales : after.locales = before.locales)
    (links : ∀ client ∈ before.clients.rows,
      after.slugOf client.bundleId = before.slugOf client.bundleId) :
    after.shelf = before.shelf := by
  funext other
  simp only [Database.shelf, clients]
  refine Option.map_congr fun client found => ?_
  apply entryOf_congr
  · rw [textOf_congr locales]
  · exact links client (Table.find_eq_some.mp found).1

theorem shelf_of_revise {set : CatalogClient → CatalogClient} {change : Entry → Entry}
    (revised : ∀ other, after.clients.find other = (before.clients.find other).map
      (Table.revise (fun client => client.id = id) set))
    (changes : ∀ client, client.id = id →
      after.entryOf (set client) = change (before.entryOf client))
    (same : ∀ client, after.entryOf client = before.entryOf client) :
    after.shelf = before.shelf.revise id change := by
  funext other
  simp only [Database.shelf, Shelf.revise, revised, Option.map_map]
  split
  · rename_i here
    refine Option.map_congr fun client found => ?_
    have named : client.id = id := (Table.find_eq_some.mp found).2.trans here
    simp only [Function.comp_apply, Table.revise, named, decide_true, if_true]
    exact changes client named
  · rename_i apart
    refine Option.map_congr fun client found => ?_
    have named : client.id ≠ id := fun same =>
      apart ((Table.find_eq_some.mp found).2.symm.trans same)
    simp only [Function.comp_apply, Table.revise, named, decide_false, Bool.false_eq_true, if_false]
    exact same client

theorem shelf_of_inserted {client : CatalogClient}
    (granted : before.clients.insert client = some after.clients)
    (same : ∀ client, after.entryOf client = before.entryOf client) :
    after.shelf = before.shelf.place client.id (before.entryOf client) := by
  have entries : after.entryOf = before.entryOf := funext same
  funext other
  simp only [Database.shelf, Shelf.place, Table.find_insert granted, entries]
  by_cases here : other = client.id
  · rw [if_pos here.symm, here, Function.update_self, Option.map_some]
  · rw [if_neg (Ne.symm here), Function.update_of_ne here]
    rfl

theorem textOf_absent (housed : before.Housed) (absent : before.clients.find id = none) :
    before.textOf id = fun _ => none := by
  funext locale
  rw [Database.textOf, Option.map_eq_none_iff, List.find?_eq_none]
  intro row member chosen
  simp only [Bool.and_eq_true, decide_eq_true_eq] at chosen
  have present := housed row member
  rw [chosen.1, absent] at present
  cases present

theorem shelf_of_texts
    {rewrite : (String → Option ClientLocaleRow) → String → Option ClientLocaleRow}
    (clients : after.clients = before.clients) (registry : after.registry = before.registry)
    (own : after.textOf id = rewrite (before.textOf id))
    (others : ∀ other, other ≠ id → after.textOf other = before.textOf other) :
    after.shelf =
      before.shelf.revise id fun entry => { entry with texts := rewrite entry.texts } := by
  funext other
  simp only [Database.shelf, Shelf.revise, clients, Option.map_map]
  split
  · rename_i here
    refine Option.map_congr fun client found => ?_
    have named : client.id = id := (Table.find_eq_some.mp found).2.trans here
    simp only [Function.comp_apply, Database.entryOf, slugOf_congr registry, named, own]
  · rename_i apart
    refine Option.map_congr fun client found => ?_
    have named : client.id ≠ id := fun same =>
      apart ((Table.find_eq_some.mp found).2.symm.trans same)
    apply entryOf_congr
    · exact others client.id named
    · rw [slugOf_congr registry]

theorem housed_of_present (locales : after.locales = before.locales)
    (present : ∀ other, (before.clients.find other).isSome → (after.clients.find other).isSome)
    (housed : before.Housed) : after.Housed := by
  intro row member
  rw [locales] at member
  exact present row.clientId (housed row member)

end Parts

/-! ## Statements on a client -/

section Clients

variable {before after : Database} {id : Uuid}

theorem updateClient_alters {fields : ClientFields} {reply : Unit}
    (executed : Sql.updateClient id fields before = .ok (reply, after)) :
    after.registry = before.registry ∧
      Alters (Shelf.revise id (Entry.setFields fields)) before after := by
  unfold Sql.updateClient at executed
  split at executed
  · rename_i clients claimed
    cases executed
    have revised := Table.find_claim claimed
    refine ⟨rfl, ?_, ?_⟩
    · apply shelf_of_revise revised
      · intro client _
        rfl
      · intro client
        rfl
    · refine housed_of_present rfl ?_
      intro other present
      rw [revised, Option.isSome_map]
      exact present
  · cases executed

theorem linkBundle_alters {bundleId : Uuid} {slug : String} {bundle : Bundles.Bundle} {reply : Unit}
    (there : before.registry.bundles.find bundleId = some bundle) (named : bundle.slug = slug)
    (executed : Sql.linkBundle id bundleId slug before = .ok (reply, after)) :
    Alters (Shelf.revise id (Entry.link slug)) before after := by
  obtain ⟨registry, revised⟩ := linkBundle_find executed
  have locales : after.locales = before.locales := by
    unfold Sql.linkBundle at executed
    split at executed
    · cases executed
      rfl
    · cases executed
  have same : ∀ client, after.entryOf client = before.entryOf client := by
    intro client
    apply entryOf_congr
    · rw [textOf_congr locales]
    · rw [slugOf_congr registry]
  constructor
  · refine shelf_of_revise revised ?_ same
    intro client _
    have linked : before.slugOf (some bundleId) = some slug := by
      rw [Database.slugOf, Option.bind_some, there, Option.map_some, named]
    rw [same]
    exact congrArg (fun slug => { before.entryOf client with bundle := slug }) linked
  · refine housed_of_present locales ?_
    intro other present
    rw [revised, Option.isSome_map]
    exact present

end Clients

section Clients

variable {before after : Database} {id : Uuid}

theorem insertClient_alters {now : Timestamp} {fields : ClientFields} {publish : Bool}
    (housed : before.Housed)
    (executed : Sql.insertClient now fields publish before = .ok (id, after)) :
    before.shelf id = none ∧ after.registry = before.registry ∧
      Alters (Shelf.place id ((Entry.blank now publish).setFields fields)) before after := by
  unfold Sql.insertClient at executed
  simp only at executed
  split at executed
  · rename_i clients granted
    cases executed
    have fresh := (Table.insert_rows granted).2.2
    have absent : before.clients.find (before.registry.ids.next before.clients.issued) = none := by
      refine Table.find_eq_none.mpr fun client member same => fresh ?_
      have issued := before.clients.keysIssued client member
      rwa [same] at issued
    have found := Table.find_insert granted
    refine ⟨congrArg (Option.map before.entryOf) absent, rfl, ?_, ?_⟩
    · refine Eq.trans (shelf_of_inserted granted fun _ => rfl) ?_
      exact congrArg (fun texts => before.shelf.place _
        { (Entry.blank now publish).setFields fields with texts := texts })
        (textOf_absent housed absent)
    · refine housed_of_present rfl ?_
      intro other present
      rw [found, apply_ite Option.isSome, present, Option.isSome_some, ite_self]
  · cases executed

theorem find_deleteClient (id other : Uuid) (database : Database) :
    (Sql.deleteClient id database).clients.find other =
      if other = id then none else database.clients.find other := by
  split
  · rename_i here
    refine Table.find_eq_none.mpr fun client member same => ?_
    have spared := (Table.mem_delete.mp member).2
    rw [decide_eq_false_iff_not] at spared
    exact spared (same.trans here)
  · rename_i apart
    refine Table.find_delete fun client _ here => ?_
    rw [decide_eq_false_iff_not, show client.id = other from here]
    exact apart

theorem deleteClient_alters (id : Uuid) (database : Database) :
    Alters (fun shelf other => if other = id then none else shelf other) database
      (Sql.deleteClient id database) := by
  constructor
  · funext other
    simp only [Database.shelf, find_deleteClient]
    split
    · rfl
    · rename_i apart
      refine Option.map_congr fun client found => ?_
      have named : client.id ≠ id := fun same =>
        apart ((Table.find_eq_some.mp found).2.symm.trans same)
      have texts : (Sql.deleteClient id database).textOf client.id = database.textOf client.id := by
        funext locale
        simp only [Database.textOf, Sql.deleteClient, Table.delete, List.find?_filter]
        congr 2
        funext row
        by_cases owned : row.clientId = client.id
        · simp [owned, named]
        · simp [owned]
      exact congrArg (fun texts => { database.entryOf client with texts := texts }) texts
  · intro housed row member
    obtain ⟨present, spared⟩ := Table.mem_delete.mp member
    rw [decide_eq_false_iff_not] at spared
    rw [find_deleteClient, if_neg spared]
    exact housed row present

end Clients

/-! ## Statements on texts -/

section Texts

variable {before after : Database} {id : Uuid}

/-- Where the text of a locale is written over, the row keeps its place. -/
theorem textOf_overwritten {input : ClientLocaleInput}
    (present : ∃ row ∈ before.locales.rows, row.clientId = id ∧ row.locale = input.locale)
    (rows : after.locales.rows = before.locales.rows.map (Table.revise
      (fun row => decide (row.clientId = id ∧ row.locale = input.locale)) input.overwrite))
    (other : Uuid) (locale : String) :
    after.textOf other locale =
      if other = id ∧ locale = input.locale then some input.text
      else before.textOf other locale := by
  have selects : ((fun row : ClientLocale => decide (row.clientId = other) &&
      decide (row.locale = locale)) ∘ Table.revise
        (fun row => decide (row.clientId = id ∧ row.locale = input.locale)) input.overwrite) =
      fun row => decide (row.clientId = other) && decide (row.locale = locale) := by
    funext row
    simp only [Function.comp_apply, Table.revise]
    split
    · rfl
    · rfl
  rw [Database.textOf, rows, List.find?_map, selects, Option.map_map]
  split
  · rename_i here
    obtain ⟨row, member, owned, spoken⟩ := present
    cases found : before.locales.rows.find? fun row =>
        decide (row.clientId = other) && decide (row.locale = locale) with
    | none =>
        have missed := List.find?_eq_none.mp found row member
        simp [owned, spoken, here] at missed
    | some chosen =>
        have named := List.find?_some found
        simp only [Bool.and_eq_true, decide_eq_true_eq] at named
        have revised : chosen.clientId = id ∧ chosen.locale = input.locale :=
          ⟨named.1.trans here.1, named.2.trans here.2⟩
        simp only [Option.map_some, Function.comp_apply, Table.revise, revised, and_self,
          decide_true, if_true]
        rfl
  · rename_i apart
    refine Option.map_congr fun row found => ?_
    have named := List.find?_some found
    simp only [Bool.and_eq_true, decide_eq_true_eq] at named
    have missed : ¬(row.clientId = id ∧ row.locale = input.locale) := by
      rintro ⟨owned, spoken⟩
      exact apart ⟨named.1.symm.trans owned, named.2.symm.trans spoken⟩
    simp only [Function.comp_apply, Table.revise, missed, decide_false, Bool.false_eq_true,
      if_false]

theorem textOf_inserted {input : ClientLocaleInput} {row : ClientLocale}
    (written : row.clientId = id ∧ row.locale = input.locale ∧ row.text = input.text)
    (rows : after.locales.rows = row :: before.locales.rows) (other : Uuid) (locale : String) :
    after.textOf other locale =
      if other = id ∧ locale = input.locale then some input.text
      else before.textOf other locale := by
  rw [Database.textOf, rows, List.find?_cons]
  by_cases here : other = id ∧ locale = input.locale
  · simp [here, written]
  · have missed : (decide (row.clientId = other) && decide (row.locale = locale)) = false := by
      rw [Bool.and_eq_false_iff, decide_eq_false_iff_not, decide_eq_false_iff_not, ← not_and_or]
      rintro ⟨owned, spoken⟩
      exact here ⟨owned.symm.trans written.1, spoken.symm.trans written.2.1⟩
    rw [missed, if_neg here]
    rfl

theorem upsertLocale_textOf {input : ClientLocaleInput} {reply : Unit}
    (executed : Sql.upsertLocale id input before = .ok (reply, after)) :
    (after.clients = before.clients ∧ after.registry = before.registry) ∧
      (∀ other locale, after.textOf other locale =
        if other = id ∧ locale = input.locale then some input.text
        else before.textOf other locale) ∧
      (before.Housed → after.Housed) := by
  unfold Sql.upsertLocale at executed
  simp only at executed
  split at executed
  · split at executed
    · rename_i there
      split at executed
      · rename_i locales granted
        cases executed
        have rows := (Table.insert_rows granted).1
        refine ⟨⟨rfl, rfl⟩, ?_, fun housed row member => ?_⟩
        · exact textOf_inserted ⟨rfl, rfl, rfl⟩ rows
        · rcases List.mem_cons.mp (rows ▸ member) with rfl | earlier
          · exact there
          · exact housed row earlier
      · cases executed
    · cases executed
  · rename_i some
    cases executed
    refine ⟨⟨rfl, rfl⟩, ?_, fun housed row member => ?_⟩
    · apply textOf_overwritten ?_ rfl
      obtain ⟨row, member, chosen⟩ := Table.affected_pos.mp (Nat.pos_of_ne_zero some)
      exact ⟨row, member, of_decide_eq_true chosen⟩
    · obtain ⟨old, earlier, rfl⟩ := List.mem_map.mp member
      unfold Table.revise
      split
      · exact housed old earlier
      · exact housed old earlier

theorem upsertLocale_alters {input : ClientLocaleInput} {reply : Unit}
    (executed : Sql.upsertLocale id input before = .ok (reply, after)) :
    Alters (Shelf.revise id fun entry => entry.write input) before after := by
  obtain ⟨⟨clients, registry⟩, texts, housed⟩ := upsertLocale_textOf executed
  refine ⟨?_, housed⟩
  apply @shelf_of_texts before after id
    (fun texts => Function.update texts input.locale (some input.text))
    clients registry
  · funext locale
    simp [texts, Function.update_apply]
  · intro other apart
    funext locale
    simp [texts, apart]

theorem writeLocales_alters {inputs : List ClientLocaleInput}
    (replayed : sql.replay before (inputs.map (.upsertLocale id)) = .ok after) :
    after.registry = before.registry ∧
      Alters (Shelf.revise id (Entry.writeAll inputs)) before after := by
  induction inputs generalizing before with
  | nil =>
      cases replayed
      refine ⟨rfl, ?_, fun housed => housed⟩
      exact Shelf.revise_id.symm
  | cons input rest induction =>
      rw [List.map_cons, Dialect.replay] at replayed
      split at replayed
      · rename_i reply middle executed
        obtain ⟨kept, later⟩ := induction replayed
        obtain ⟨⟨-, registry⟩, -, -⟩ := upsertLocale_textOf executed
        have first := upsertLocale_alters executed
        refine ⟨kept.trans registry, ?_, fun housed => later.housed (first.housed housed)⟩
        rw [later.shelf, first.shelf, Shelf.revise_revise]
        rfl
      · cases replayed

theorem deleteLocalesBut_alters (id : Uuid) (locales : List String) (database : Database) :
    Alters (Shelf.revise id (Entry.keepOnly locales)) database
      (Sql.deleteLocalesBut id locales database) := by
  have texts : ∀ other locale, (Sql.deleteLocalesBut id locales database).textOf other locale =
      if other = id ∧ locale ∉ locales then none else database.textOf other locale := by
    intro other locale
    simp only [Database.textOf, Sql.deleteLocalesBut, Table.delete, List.find?_filter]
    split
    · rename_i gone
      rw [Option.map_eq_none_iff, List.find?_eq_none]
      intro row _ chosen
      simp only [Bool.and_eq_true, decide_eq_true_eq] at chosen
      simp [chosen.2, gone] at chosen
    · rename_i kept
      congr 2
      funext row
      by_cases chosen : row.clientId = other ∧ row.locale = locale
      · simp only [chosen, decide_true, Bool.and_self]
        simp only [not_and_or, not_not] at kept
        rcases kept with apart | among
        · simp [apart]
        · simp [among]
      · have missed : (decide (row.clientId = other) && decide (row.locale = locale)) = false := by
          rwa [Bool.and_eq_false_iff, decide_eq_false_iff_not, decide_eq_false_iff_not,
            ← not_and_or]
        simp [missed]
  constructor
  · apply @shelf_of_texts database (Sql.deleteLocalesBut id locales database) id
      (fun texts locale => if locale ∈ locales then texts locale else none) rfl rfl
    · funext locale
      rw [texts]
      by_cases among : locale ∈ locales
      · simp [among]
      · simp [among]
    · intro other apart
      funext locale
      simp [texts, apart]
  · intro housed row member
    exact housed row (Table.mem_delete.mp member).1

end Texts

/-! ## Statements on the registry -/

section Registry

variable {before after : Database}

theorem insertBundle_alters {name slug : String} {bundleId : Uuid}
    (executed : Statement.execute before (.ofRegistry (.insertBundle name slug)) =
      .ok (bundleId, after)) :
    (∃ bundle, after.registry.bundles.find bundleId = some bundle ∧ bundle.slug = slug) ∧
      Alters (fun shelf => shelf) before after := by
  simp only [Statement.execute, Bundles.Statement.execute] at executed
  split at executed
  · rename_i reply registry inserted
    cases executed
    obtain ⟨-, kept⟩ := insertBundle_kept inserted
    have clients := @withRegistry_clients registry before fun other there =>
      (kept other there).symm ▸ there
    refine ⟨?_, ?_, ?_⟩
    · unfold Bundles.Sql.insertBundle at inserted
      simp only at inserted
      split at inserted
      · rename_i bundles granted
        cases inserted
        refine ⟨_, Table.find_insert granted _ |>.trans (if_pos rfl), rfl⟩
      · cases inserted
    · apply shelf_of_same clients rfl
      intro client member
      unfold Database.slugOf
      cases linked : client.bundleId with
      | none => rfl
      | some other =>
          have there := before.linked client member other linked
          simp only [Option.bind_some, Sql.withRegistry, kept other there]
    · refine housed_of_present rfl ?_
      intro other present
      rwa [clients]
  · cases executed

theorem find_deleteBundle (old other : Uuid) (registry : Bundles.Database) :
    (Bundles.Sql.deleteBundle old registry).bundles.find other =
      if other = old then none else registry.bundles.find other := by
  split
  · rename_i same
    subst same
    refine Table.find_eq_none.mpr fun row member named => ?_
    have spared := (Table.mem_delete.mp member).2
    rw [decide_eq_false_iff_not] at spared
    exact spared named
  · rename_i apart
    refine Table.find_delete fun row _ here => ?_
    rw [decide_eq_false_iff_not, show row.id = other from here]
    exact apart

theorem bundleId_of_slug {registry : Bundles.Database} {first second : Uuid}
    {one two : Bundles.Bundle} (found : registry.bundles.find first = some one)
    (other : registry.bundles.find second = some two) (same : one.slug = two.slug) :
    first = second := by
  obtain ⟨oneMem, oneIs⟩ := Table.find_eq_some.mp found
  obtain ⟨twoMem, twoIs⟩ := Table.find_eq_some.mp other
  rw [← oneIs, ← twoIs, Table.eq_of_slot_eq oneMem twoMem (congrArg some same) rfl]

theorem loses_link {old : Uuid} {database : Database} {client : CatalogClient}
    (member : client ∈ database.clients.rows) :
    (client.bundleId.any fun bundleId =>
      ((Bundles.Sql.deleteBundle old database.registry).bundles.find bundleId).isNone) =
        decide (client.bundleId = some old) := by
  cases linked : client.bundleId with
  | none => rfl
  | some bundleId =>
      have present := database.linked client member bundleId linked
      rw [Option.any_some, find_deleteBundle]
      split
      · rename_i same
        rw [same]
        exact (decide_eq_true rfl).symm
      · rename_i apart
        rw [decide_eq_false fun same => apart (Option.some.inj same), Option.isNone_eq_false_iff]
        exact present

theorem entryOf_unlinked {old : Uuid} {bundle : Bundles.Bundle} {database : Database}
    (there : database.registry.bundles.find old = some bundle) (client : CatalogClient) :
    (Sql.withRegistry (Bundles.Sql.deleteBundle old database.registry) database).entryOf
        (if client.bundleId = some old then { client with bundleId := none } else client) =
      (database.entryOf client).unlink bundle.slug := by
  unfold Entry.unlink
  by_cases same : client.bundleId = some old
  · have named : (database.entryOf client).bundle = some bundle.slug := by
      simp only [Database.entryOf, Database.slugOf, same, Option.bind_some, there, Option.map_some]
    rw [if_pos same, if_pos named]
    rfl
  · have apart : (database.entryOf client).bundle ≠ some bundle.slug := by
      intro named
      obtain ⟨bundleId, linked, shown⟩ := Option.bind_eq_some_iff.mp named
      obtain ⟨own, held, shared⟩ := Option.map_eq_some_iff.mp shown
      exact same (linked.trans (congrArg some (bundleId_of_slug held there shared)))
    rw [if_neg same, if_neg apart]
    refine entryOf_congr rfl ?_
    cases linked : client.bundleId with
    | none => rfl
    | some bundleId =>
        have differs : bundleId ≠ old := fun equal => same (linked.trans (congrArg some equal))
        simp only [Database.slugOf, Sql.withRegistry, Option.bind_some, find_deleteBundle,
          if_neg differs]

theorem deleteBundle_alters {old : Uuid} {bundle : Bundles.Bundle} {database : Database}
    (there : database.registry.bundles.find old = some bundle) :
    Alters (fun shelf other => (shelf other).map (Entry.unlink bundle.slug)) database
      (Sql.withRegistry (Bundles.Sql.deleteBundle old database.registry) database) := by
  have clients : ∀ other, (Sql.withRegistry (Bundles.Sql.deleteBundle old database.registry)
      database).clients.find other = (database.clients.find other).map
        (Table.revise (fun client => client.bundleId.any fun bundleId =>
          ((Bundles.Sql.deleteBundle old database.registry).bundles.find bundleId).isNone)
          fun client => { client with bundleId := none }) := by
    intro other
    rw [Sql.withRegistry, Table.find_update]
  constructor
  · funext other
    simp only [Database.shelf, clients, Option.map_map]
    refine Option.map_congr fun client found => ?_
    have member := (Table.find_eq_some.mp found).1
    simp only [Function.comp_apply, Table.revise, loses_link member, decide_eq_true_eq]
    exact entryOf_unlinked there client
  · refine housed_of_present rfl ?_
    intro other present
    rw [clients, Option.isSome_map]
    exact present

theorem deleteUnlinked_alters {old : Uuid} {database : Database}
    (there : (database.registry.bundles.find old).isSome)
    (unlinked : ∀ client ∈ database.clients.rows, client.bundleId ≠ some old) :
    Alters (fun shelf => shelf) database
      (Sql.withRegistry (Bundles.Sql.deleteBundle old database.registry) database) := by
  obtain ⟨bundle, found⟩ := Option.isSome_iff_exists.mp there
  have gone := deleteBundle_alters found
  refine ⟨gone.shelf.trans ?_, gone.housed⟩
  funext other
  cases present : database.shelf other with
  | none => rfl
  | some entry =>
      obtain ⟨client, here, rfl⟩ := Option.map_eq_some_iff.mp present
      refine congrArg some (if_neg fun named => ?_)
      obtain ⟨bundleId, linked, shown⟩ := Option.bind_eq_some_iff.mp named
      obtain ⟨own, held, same⟩ := Option.map_eq_some_iff.mp shown
      apply unlinked client (Table.find_eq_some.mp here).1
      rw [linked, bundleId_of_slug held found same]

end Registry

end Loontail.Catalog
