import Loontail.Bundles.Repo
import Loontail.Catalog.Service

/-! # The admin handlers of the clients

A client is created, updated and deleted together with its link to a bundle of the
registry. The guard for administrators is not part of the handlers. -/

namespace Loontail.Catalog

open Concurrency Text
open Bundles (buildPath filesPath validateSlug)

/-- `bundleSlug` tells an absent field from one that is `null`. -/
structure UpsertClient where
  fields : ClientFields
  bundleSlug : Option (Option String)
  publish : Option Bool
  locales : List ClientLocaleInput
  replaceLocales : Bool
  deleteOrphanedBundle : Bool
  deriving DecidableEq, Repr

/-! ## What the registry offers -/

def findBundleIdBySlug (log : List Statement) (slug : String) : Handler (Option Uuid) := do
  let found ← inside log (.ofRegistry (.findBySlug slug))
  pure (found.map (·.id))

def bundleSlugById (log : List Statement) (id : Uuid) : Handler (Option String) :=
  inside log (.ofRegistry (.bundleSlugById id))

def provisionBundleRow (log : List Statement) (slug name : String) :
    Handler (Uuid × List Statement) := do
  Fallible.lift (validateSlug slug)
  let taken ← findBundleIdBySlug log slug
  Fallible.refuse taken.isSome (.conflict "a build with this slug already exists")
  let id ← inside log (.ofRegistry (.insertBundle name slug))
  pure (id, log ++ [.ofRegistry (.insertBundle name slug)])

def ensureBundleDir (slug : String) : Handler Unit := do
  match ← onBuilds (.createDirAll (filesPath slug)) with
  | .ok _ => pure ()
  | .error error => throw (.internal ("mkdir build dir: " ++ error.text))

/-- Its error is only logged. -/
def removeBundleDir (slug : String) : Handler Unit := do
  if let .ok true ← onBuilds (.tryExists (buildPath slug)) then
    let _ ← onBuilds (.removeDirAll (buildPath slug))

/-! ## The link of a client -/

/-- What the payload asks for: nothing where the field is absent, `null` or blank. -/
def requestedBundleSlug (body : UpsertClient) : Option String :=
  (body.bundleSlug.join.map trim).filter (· ≠ "")

structure LinkedBundle where
  bundleId : Uuid
  effectiveSlug : String
  provisioned : Bool
  deriving DecidableEq, Repr

def findOrProvision (log : List Statement) (slug : String) (locales : List ClientLocaleInput) :
    Handler (Uuid × Bool × List Statement) := do
  match ← findBundleIdBySlug log slug with
  | some existing => pure (existing, false, log)
  | none =>
      let name := (locales.head?.map (·.title)).getD slug
      let (id, log) ← provisionBundleRow log slug name
      pure (id, true, log)

def linkOwnedBundle (log : List Statement) (clientId : Uuid) (slug : String)
    (locales : List ClientLocaleInput) : Handler (LinkedBundle × List Statement) := do
  let (bundleId, provisioned, log) ← findOrProvision log slug locales
  let log ← insideAll log [.linkBundle clientId bundleId slug]
  pure (⟨bundleId, slug, provisioned⟩, log)

/-- An absent field keeps the bundle that the client is linked to. -/
def resolveOwnedBundleSlug (log : List Statement) (body : UpsertClient)
    (oldBundleId : Option Uuid) : Handler String := do
  let clientSlug := trim body.fields.slug
  match requestedBundleSlug body with
  | some explicit => pure explicit
  | none =>
      match body.bundleSlug, oldBundleId with
      | none, some old =>
          let kept ← bundleSlugById log old
          pure (kept.getD clientSlug)
      | _, _ => pure clientSlug

inductive Stranded where
  | deleted (slug : String)
  | kept (slug : String)
  | none
  deriving DecidableEq, Repr

def strandOldBundle (log : List Statement) (old : Uuid) (deleteOrphaned : Bool) :
    Handler (Stranded × List Statement) := do
  let stillReferenced ← inside log (.countLinks old)
  if 0 < stillReferenced then pure (.none, log)
  else
    match ← bundleSlugById log old with
    | none => pure (.none, log)
    | some slug =>
        let artifacts ← inside log (.ofRegistry (.countArtifacts old))
        if deleteOrphaned ∨ artifacts = 0 then
          let log ← insideAll log [.ofRegistry (.deleteBundle old)]
          pure (.deleted slug, log)
        else pure (.kept slug, log)

def writeClientLocales (log : List Statement) (clientId : Uuid)
    (locales : List ClientLocaleInput) : Handler (List Statement) :=
  insideAll log (locales.map (.upsertLocale clientId))

/-! ## The handlers -/

/-- `now` is the time at which the transaction begins. -/
def createClient (now : Timestamp) (body : UpsertClient) : Handler (Uuid × String) := do
  begin
  let insertion := Statement.insertClient now body.fields (body.publish = some true)
  let id ← insideSlug "client" [] insertion
  let log ← writeClientLocales [insertion] id body.locales
  let ownedSlug := (requestedBundleSlug body).getD (trim body.fields.slug)
  let (linked, log) ← linkOwnedBundle log id ownedSlug body.locales
  commit log
  Fallible.whenever linked.provisioned (ensureBundleDir linked.effectiveSlug)
  pure (id, linked.effectiveSlug)

/-- `replaceLocales` makes what is sent the complete set. -/
def dropOtherLocales (log : List Statement) (clientId : Uuid) (body : UpsertClient) :
    Handler (List Statement) :=
  if body.replaceLocales then
    insideAll log [.deleteLocalesBut clientId (body.locales.map (·.locale))]
  else pure log

def strandUnlinked (log : List Statement) (oldBundleId : Option Uuid) (newBundleId : Uuid)
    (deleteOrphaned : Bool) : Handler (Stranded × List Statement) :=
  match oldBundleId with
  | some old =>
      if old ≠ newBundleId then strandOldBundle log old deleteOrphaned else pure (.none, log)
  | none => pure (.none, log)

def updateRows (id : Uuid) (body : UpsertClient) :
    Handler (LinkedBundle × Stranded × List Statement) := do
  let found ← inside [] (.clientBundle id)
  let oldBundleId ← Fallible.okOr found (.notFound "client not found")
  let rewrite := Statement.updateClient id body.fields
  let _ ← insideSlug "client" [] rewrite
  let log ← writeClientLocales [rewrite] id body.locales
  let log ← dropOtherLocales log id body
  let ownedSlug ← resolveOwnedBundleSlug log body oldBundleId
  let (linked, log) ← linkOwnedBundle log id ownedSlug body.locales
  let (stranded, log) ← strandUnlinked log oldBundleId linked.bundleId body.deleteOrphanedBundle
  pure (linked, stranded, log)

/-- Answers the slug of a bundle that stays without a client. -/
def updateClient (id : Uuid) (body : UpsertClient) : Handler (Option String) := do
  begin
  let (linked, stranded, log) ← updateRows id body
  commit log
  Fallible.whenever linked.provisioned (ensureBundleDir linked.effectiveSlug)
  match stranded with
  | .deleted slug =>
      removeBundleDir slug
      pure none
  | .kept slug => pure (some slug)
  | .none => pure none

/-- The client goes first, and its bundle after it. -/
def deleteRows (id : Uuid) : Handler (Option String × List Statement) := do
  let found ← inside [] (.clientBundle id)
  let bundleId ← Fallible.okOr found (.notFound "client not found")
  let log ← insideAll [] [.deleteClient id]
  match bundleId with
  | some bundleId =>
      let slug ← bundleSlugById log bundleId
      let log ← insideAll log [.ofRegistry (.deleteBundle bundleId)]
      pure (slug, log)
  | none => pure (none, log)

def deleteClient (id : Uuid) : Handler Unit := do
  begin
  let (bundleSlug, log) ← deleteRows id
  commit log
  bundleSlug.forM removeBundleDir
  let _ ← onMedia (.removeDirAll [idHex id])

/-! ## Requests -/

inductive ClientRequest where
  | create (now : Timestamp) (body : UpsertClient)
  | update (id : Uuid) (body : UpsertClient)
  | delete (id : Uuid)
  deriving DecidableEq, Repr

def handleClient : ClientRequest → Process catalog (Except AppError Unit)
  | .create now body => (do let _ ← createClient now body : Handler Unit).run
  | .update id body => (do let _ ← updateClient id body : Handler Unit).run
  | .delete id => (deleteClient id).run

end Loontail.Catalog
