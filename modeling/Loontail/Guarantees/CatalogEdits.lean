import Loontail.Catalog.Outcomes
import Loontail.Catalog.Repo
import Loontail.Catalog.Shelf
import Loontail.Concurrency.Run
import Loontail.Guarantees.SharedBundles

/-! # What was saved is what is shown

Whatever the administrators ask for one after another, and whichever operations fail on the way,
the catalog goes from one shelf to the next as a whole. The launchers are shown its entries. -/

namespace Loontail.Catalog

open Concurrency Disk Relational
open Dialect Transactional
open Text (trim)

/-! ## The parts of a transaction -/

section Parts

variable {stores : Service} {log : List Statement} {seen : Database} {id : Uuid}

/-- The transaction has changed the tables that it sees by this much, and nobody else sees it. -/
structure Drafted (stores : Service) (seen : Database) (effect : Shelf → Shelf)
    (longer : List Statement) (following : Service) (after : Database) : Prop where
  still : following = stores
  replayed : sql.replay stores.database longer = .ok after
  alters : Alters effect seen after

theorem writeClientLocales_drafted (replayed : sql.replay stores.database log = .ok seen)
    (locales : List ClientLocaleInput) :
    (writeClientLocales log id locales).Meets (.everyWay catalog)
      (fun longer following => ∃ after, after.registry = seen.registry ∧
        Drafted stores seen (Shelf.revise id (Entry.writeAll locales)) longer following after)
      (Untouched stores) stores := by
  refine everyWay_insideAll replayed (fun _ => rfl) fun after continued => ?_
  obtain ⟨registry, alters⟩ := writeLocales_alters continued
  refine ⟨after, registry, rfl, ?_, alters⟩
  rw [replay_append, replayed]
  exact continued

theorem dropOtherLocales_drafted (replayed : sql.replay stores.database log = .ok seen)
    (body : UpsertClient) :
    (dropOtherLocales log id body).Meets (.everyWay catalog)
      (fun longer following => ∃ after, after.registry = seen.registry ∧
        Drafted stores seen (Shelf.revise id (Entry.dropOthers body)) longer following after)
      (Untouched stores) stores := by
  unfold dropOtherLocales
  split
  · rename_i complete
    refine everyWay_insideAll replayed (fun _ => rfl) fun after continued => ?_
    cases continued
    have same : Entry.dropOthers body = Entry.keepOnly (body.locales.map (·.locale)) := by
      funext entry
      exact if_pos complete
    refine ⟨Sql.deleteLocalesBut id _ seen, rfl, rfl, replay_concat replayed rfl, ?_⟩
    rw [same]
    exact deleteLocalesBut_alters id _ seen
  · rename_i partly
    have same : Entry.dropOthers body = fun entry => entry := by
      funext entry
      exact if_neg partly
    refine ⟨seen, rfl, rfl, replayed, ?_, fun housed => housed⟩
    rw [same, Shelf.revise_id]

theorem resolveOwnedBundleSlug_exact (replayed : sql.replay stores.database log = .ok seen)
    (body : UpsertClient) (oldBundleId : Option Uuid) :
    (resolveOwnedBundleSlug log body oldBundleId).Meets (.everyWay catalog)
      (fun slug following => following = stores ∧ slug = body.ownedSlug (seen.slugOf oldBundleId))
      (Untouched stores) stores := by
  unfold resolveOwnedBundleSlug
  split
  · rename_i explicit asked
    refine ⟨rfl, ?_⟩
    rw [UpsertClient.ownedSlug, asked, Option.getD_some]
  · rename_i asked
    have owned : body.ownedSlug (seen.slugOf oldBundleId) = if body.bundleSlug = none then
        (seen.slugOf oldBundleId).getD (trim body.fields.slug) else trim body.fields.slug := by
      rw [UpsertClient.ownedSlug, asked, Option.getD_none]
    rw [owned]
    cases given : body.bundleSlug with
    | some explicit => exact ⟨rfl, rfl⟩
    | none =>
        cases oldBundleId with
        | none => exact ⟨rfl, rfl⟩
        | some old =>
            simp only [Fallible.meets_bind]
            refine (bundleSlugById_everyWay replayed old).mono ?_ fun _ _ same => same
            rintro found following ⟨rfl, rfl⟩
            exact ⟨rfl, rfl⟩

def Stands (slug : String) (bundleId : Uuid) (database : Database) : Prop :=
  ∃ bundle, database.registry.bundles.find bundleId = some bundle ∧ bundle.slug = slug

theorem provisionBundleRow_drafted (replayed : sql.replay stores.database log = .ok seen)
    (slug name : String) :
    (provisionBundleRow log slug name).Meets (.everyWay catalog)
      (fun done following => ∃ after, Stands slug done.1 after ∧
        Drafted stores seen (fun shelf => shelf) done.2 following after)
      (Untouched stores) stores := by
  unfold provisionBundleRow
  simp only [Fallible.meets_bind, Fallible.meets_lift, Fallible.meets_refuse]
  refine ⟨fun _ _ => trivial, fun _ _ => ?_⟩
  refine (findBundleIdBySlug_everyWay replayed slug).mono ?_ fun _ _ same => same
  rintro found following ⟨rfl, -⟩
  refine ⟨fun _ => rfl, fun _ => ?_⟩
  refine everyWay_inside replayed (fun _ => rfl) fun bundleId after executed => ?_
  obtain ⟨stands, alters⟩ := insertBundle_alters executed
  exact ⟨after, stands, rfl, replay_concat replayed executed, alters⟩

theorem findOrProvision_drafted (replayed : sql.replay stores.database log = .ok seen)
    (slug : String) (locales : List ClientLocaleInput) :
    (findOrProvision log slug locales).Meets (.everyWay catalog)
      (fun done following => ∃ after, Stands slug done.1 after ∧
        Drafted stores seen (fun shelf => shelf) done.2.2 following after)
      (Untouched stores) stores := by
  unfold findOrProvision
  rw [Fallible.meets_bind]
  refine (findBundleIdBySlug_everyWay replayed slug).mono ?_ fun _ _ same => same
  rintro found following ⟨rfl, rfl⟩
  split
  · rename_i bundleId there
    obtain ⟨bundle, found, rfl⟩ := Option.map_eq_some_iff.mp there
    have member := List.mem_of_find?_eq_some found
    have named : bundle.slug = slug := by simpa using List.find?_some found
    exact ⟨seen, ⟨bundle, Table.find_eq_some.mpr ⟨member, rfl⟩, named⟩, rfl, replayed, .refl seen⟩
  · rw [Fallible.meets_bind]
    refine (provisionBundleRow_drafted replayed slug _).mono ?_ fun _ _ same => same
    rintro ⟨bundleId, longer⟩ last drafted
    exact drafted

theorem linkOwnedBundle_drafted (replayed : sql.replay stores.database log = .ok seen)
    (slug : String) (locales : List ClientLocaleInput) :
    (linkOwnedBundle log id slug locales).Meets (.everyWay catalog)
      (fun done following => ∃ after,
        Drafted stores seen (Shelf.revise id (Entry.link slug)) done.2 following after)
      (Untouched stores) stores := by
  unfold linkOwnedBundle
  rw [Fallible.meets_bind]
  refine (findOrProvision_drafted replayed slug locales).mono ?_ fun _ _ same => same
  rintro ⟨bundleId, provisioned, longer⟩ following
    ⟨middle, ⟨bundle, there, named⟩, rfl, reached, earlier⟩
  rw [Fallible.meets_bind]
  refine everyWay_insideAll reached (fun _ => rfl) fun after linking => ?_
  have ended : sql.replay following.database (longer ++ [.linkBundle id bundleId slug]) =
      .ok after := by
    rw [replay_append, reached]
    exact linking
  rw [replay] at linking
  split at linking
  · rename_i executed
    cases linking
    exact ⟨after, rfl, ended, earlier.trans (linkBundle_alters there named executed)⟩
  · cases linking

theorem strandUnlinked_drafted (replayed : sql.replay stores.database log = .ok seen)
    (oldBundleId : Option Uuid) (newBundleId : Uuid) (deleteOrphaned : Bool) :
    (strandUnlinked log oldBundleId newBundleId deleteOrphaned).Meets (.everyWay catalog)
      (fun done following => ∃ after,
        Drafted stores seen (fun shelf => shelf) done.2 following after)
      (Untouched stores) stores := by
  refine (strandUnlinked_everyWay replayed oldBundleId newBundleId deleteOrphaned).mono ?_
    fun _ _ same => same
  rintro ⟨stranded, longer⟩ following ⟨rfl, after, reached, outcome⟩
  refine ⟨after, rfl, reached, ?_⟩
  rcases outcome with ⟨rfl, -⟩ | ⟨old, slug, -, -, -, destroyed⟩
  · exact .refl after
  · obtain ⟨bundle, found, -⟩ := destroyed.named
    rw [destroyed.left]
    exact deleteUnlinked_alters (by rw [found]; rfl) destroyed.unlinked

/-! ## The transactions -/

/-- An update is there as a whole when it commits. -/
theorem updateRows_drafted (id : Uuid) (body : UpsertClient) (stores : Service) :
    (updateRows id body).Meets (.everyWay catalog)
      (fun done following => ∃ after, (stores.database.shelf id).isSome ∧
        Drafted stores stores.database (Shelf.revise id (Entry.update body)) done.2.2 following
          after)
      (Untouched stores) stores := by
  unfold updateRows
  refine (Fallible.meets_bind _ _).mpr (everyWay_inside rfl (fun _ => rfl) ?_)
  rintro reply after executed
  cases executed
  simp only [Fallible.meets_bind, Fallible.meets_okOr]
  refine ⟨fun _ => trivial, fun oldBundleId selected => ?_⟩
  obtain ⟨client, found, rfl⟩ := Option.map_eq_some_iff.mp selected
  have there : stores.database.shelf id = some (stores.database.entryOf client) := by
    rw [Database.shelf, found, Option.map_some]
  refine everyWay_inside rfl (fun _ => rfl) fun reply renamed executed => ?_
  obtain ⟨registry, first⟩ := updateClient_alters executed
  have begun : sql.replay stores.database [.updateClient id body.fields] = .ok renamed :=
    replay_concat (rfl : sql.replay stores.database [] = .ok stores.database) executed
  refine (writeClientLocales_drafted begun body.locales).mono ?_ fun _ _ same => same
  rintro log following ⟨localized, stayed, rfl, replayed, second⟩
  refine (dropOtherLocales_drafted replayed body).mono ?_ fun _ _ same => same
  rintro log following ⟨middle, kept, rfl, replayed, third⟩
  refine (resolveOwnedBundleSlug_exact replayed body client.bundleId).mono ?_ fun _ _ same => same
  rintro slug following ⟨rfl, rfl⟩
  rw [slugOf_congr (kept.trans (stayed.trans registry))]
  refine (linkOwnedBundle_drafted replayed _ body.locales).mono ?_ fun _ _ same => same
  rintro ⟨linked, log⟩ following ⟨relinked, rfl, replayed, fourth⟩
  refine (strandUnlinked_drafted replayed client.bundleId linked.bundleId
    body.deleteOrphanedBundle).mono ?_ fun _ _ same => same
  rintro ⟨stranded, log⟩ last ⟨after, rfl, replayed, fifth⟩
  have whole := (((first.trans second).trans third).trans fourth).trans fifth
  refine ⟨after, by rw [there]; rfl, rfl, replayed, ?_, whole.housed⟩
  rw [whole.shelf, Shelf.revise_revise, Shelf.revise_revise, Shelf.revise_revise]
  exact Shelf.revise_congr there rfl

theorem deleteRows_drafted (id : Uuid) (stores : Service) :
    (deleteRows id).Meets (.everyWay catalog)
      (fun done following => ∃ after, (stores.database.shelf id).isSome ∧
        Drafted stores stores.database (Shelf.take id) done.2 following after)
      (Untouched stores) stores := by
  unfold deleteRows
  refine (Fallible.meets_bind _ _).mpr (everyWay_inside rfl (fun _ => rfl) ?_)
  rintro reply after executed
  cases executed
  simp only [Fallible.meets_bind, Fallible.meets_okOr]
  refine ⟨fun _ => trivial, fun bundleId selected => ?_⟩
  obtain ⟨client, found, rfl⟩ := Option.map_eq_some_iff.mp selected
  have there : stores.database.shelf id = some (stores.database.entryOf client) := by
    rw [Database.shelf, found, Option.map_some]
  refine everyWay_insideAll rfl (fun _ => rfl) fun after deleted => ?_
  cases deleted
  have first := deleteClient_alters id stores.database
  have begun : sql.replay stores.database ([] ++ [.deleteClient id]) =
      .ok (Sql.deleteClient id stores.database) := rfl
  split
  · rename_i bundleId link
    rw [Fallible.meets_bind]
    refine (bundleSlugById_everyWay begun bundleId).mono ?_ fun _ _ same => same
    rintro slug following ⟨rfl, -⟩
    refine (Fallible.meets_bind _ _).mpr (everyWay_insideAll begun (fun _ => rfl) ?_)
    rintro after deleted
    cases deleted
    obtain ⟨bundle, present⟩ := Option.isSome_iff_exists.mp
      (following.database.linked client (Table.find_eq_some.mp found).1 bundleId link)
    have second := @deleteBundle_alters bundleId bundle (Sql.deleteClient id following.database)
      present
    have owned : (following.database.entryOf client).bundle = some bundle.slug := by
      simp only [Database.entryOf, Database.slugOf, link, Option.bind_some, present,
        Option.map_some]
    refine ⟨_, by rw [there]; rfl, rfl, replay_concat begun rfl, ?_, (first.trans second).housed⟩
    rw [(first.trans second).shelf, Shelf.take_of_linked there owned]
  · rename_i unlinked
    have bare : (stores.database.entryOf client).bundle = none := by
      simp only [Database.entryOf, Database.slugOf, unlinked, Option.bind_none]
    refine ⟨_, by rw [there]; rfl, rfl, begun, ?_, first.housed⟩
    rw [first.shelf, Shelf.take_of_unlinked there bare]

end Parts

/-! ## The handlers -/

section Handlers

variable (stores : Service)

/-- An error after which nothing is done, or all of it. -/
def Settled (done : Database → Prop) (error : AppError) (following : Service) : Prop :=
  following = stores ∨ done following.database ∧ Told (.error error)

theorem ensureBundleDir_told (slug : String) :
    (ensureBundleDir slug).Meets (.everyWay catalog)
      (fun _ following => following.database = stores.database)
      (fun error following => following.database = stores.database ∧ Told (.error error))
      stores := by
  unfold ensureBundleDir
  refine (Fallible.meets_bind _ _).mpr (onBuilds_everyWay ⟨rfl, _, rfl⟩ ?_)
  split
  · exact rfl
  · exact ⟨rfl, _, rfl⟩

theorem updateClient_saves (id : Uuid) (body : UpsertClient) :
    (updateClient id body).Meets (.everyWay catalog)
      (fun _ following => (stores.database.shelf id).isSome ∧
        Alters (Shelf.revise id (Entry.update body)) stores.database following.database)
      (Settled stores fun after => (stores.database.shelf id).isSome ∧
        Alters (Shelf.revise id (Entry.update body)) stores.database after) stores := by
  unfold updateClient
  refine (Fallible.meets_bind _ _).mpr (everyWay_begin (fun _ => .inl rfl) ?_)
  rw [Fallible.meets_bind]
  refine (updateRows_drafted id body stores).mono ?_ fun _ following same => .inl same
  rintro ⟨linked, stranded, log⟩ following ⟨after, there, rfl, replayed, alters⟩
  refine (Fallible.meets_bind _ _).mpr (everyWay_commit replayed (fun _ => .inl rfl) ?_)
  -- what comes after the commit leaves the rows
  have made : (Fallible.whenever linked.provisioned (ensureBundleDir linked.effectiveSlug)).Meets
      (.everyWay catalog) (fun _ last => last.database = after)
      (fun error last => last.database = after ∧ Told (.error error))
      { following with database := after } := by
    refine (Fallible.meets_whenever _ _).mpr ⟨fun _ => ?_, fun _ => rfl⟩
    exact ensureBundleDir_told { following with database := after } _
  refine (Fallible.meets_bind _ _).mpr (made.mono ?_ ?_)
  · rintro _ last rfl
    split
    · refine (Fallible.meets_bind _ _).mpr
        ((removeBundleDir_within _).mono ?_ fun _ _ => False.elim)
      rintro _ ended within
      have same : ended.database = last.database := within.database
      rw [← same] at alters
      exact ⟨there, alters⟩
    · exact ⟨there, alters⟩
    · exact ⟨there, alters⟩
  · rintro error last ⟨rfl, told⟩
    exact .inr ⟨⟨there, alters⟩, told⟩

theorem ownedSlug_none (body : UpsertClient) :
    body.ownedSlug none = (requestedBundleSlug body).getD (trim body.fields.slug) := by
  rw [UpsertClient.ownedSlug, Option.getD_none, ite_self]

theorem createClient_saves (housed : stores.database.Housed) (now : Timestamp)
    (body : UpsertClient) :
    (createClient now body).Meets (.everyWay catalog)
      (fun _ following => ∃ id, stores.database.shelf id = none ∧
        Alters (Shelf.place id (Entry.create now body)) stores.database following.database)
      (Settled stores fun after => ∃ id, stores.database.shelf id = none ∧
        Alters (Shelf.place id (Entry.create now body)) stores.database after) stores := by
  unfold createClient
  refine (Fallible.meets_bind _ _).mpr (everyWay_begin (fun _ => .inl rfl) ?_)
  refine (Fallible.meets_bind _ _).mpr (everyWay_inside rfl (fun _ => .inl rfl) ?_)
  rintro id inserted executed
  obtain ⟨absent, -, first⟩ := insertClient_alters housed executed
  have begun := replay_concat (rfl : sql.replay stores.database [] = .ok stores.database) executed
  rw [Fallible.meets_bind]
  refine (@writeClientLocales_drafted _ _ _ id begun body.locales).mono ?_
    fun _ following same => .inl same
  rintro log following ⟨localized, -, rfl, replayed, second⟩
  rw [Fallible.meets_bind]
  refine (@linkOwnedBundle_drafted _ _ _ id replayed _ body.locales).mono ?_
    fun _ following same => .inl same
  rintro ⟨linked, log⟩ following ⟨after, rfl, replayed, third⟩
  have alters : Alters (Shelf.place id (Entry.create now body)) following.database after := by
    have whole := (first.trans second).trans third
    refine ⟨?_, whole.housed⟩
    rw [whole.shelf, Shelf.revise_place, Shelf.revise_place, ← ownedSlug_none]
    rfl
  refine (Fallible.meets_bind _ _).mpr (everyWay_commit replayed (fun _ => .inl rfl) ?_)
  refine (Fallible.meets_bind _ _).mpr ((Fallible.meets_whenever _ _).mpr
    ⟨fun _ => ?_, fun _ => ⟨id, absent, alters⟩⟩)
  refine (ensureBundleDir_told { following with database := after } _).mono ?_ ?_
  · rintro _ last same
    exact ⟨id, absent, same ▸ alters⟩
  · rintro error last ⟨same, told⟩
    exact .inr ⟨⟨id, absent, same ▸ alters⟩, told⟩

theorem deleteClient_saves (id : Uuid) :
    (deleteClient id).Meets (.everyWay catalog)
      (fun _ following => (stores.database.shelf id).isSome ∧
        Alters (Shelf.take id) stores.database following.database)
      (fun _ following => following = stores) stores := by
  unfold deleteClient
  refine (Fallible.meets_bind _ _).mpr (everyWay_begin (fun _ => rfl) ?_)
  rw [Fallible.meets_bind]
  refine (deleteRows_drafted id stores).mono ?_ fun _ following same => same
  rintro ⟨bundleSlug, log⟩ following ⟨after, there, rfl, replayed, alters⟩
  refine (Fallible.meets_bind _ _).mpr (everyWay_commit replayed (fun _ => rfl) ?_)
  have removed : (bundleSlug.forM removeBundleDir).Meets (.everyWay catalog)
      (fun _ last => last.database = after) (fun _ _ => False)
      { following with database := after } := by
    cases bundleSlug with
    | none => exact rfl
    | some slug =>
        refine (removeBundleDir_within slug).mono ?_ fun _ _ => False.elim
        exact fun _ last within => within.database
  refine (Fallible.meets_bind _ _).mpr (removed.mono ?_ fun _ _ => False.elim)
  rintro _ last rfl
  refine (Fallible.meets_bind _ _).mpr fun result ended occurs => ?_
  rcases occurs_onDevice occurs with ⟨rfl, rfl⟩ | ⟨-, rfl⟩
  · exact ⟨there, alters⟩
  · exact ⟨there, alters⟩

end Handlers

/-! ## Publication -/

namespace Sql

/-- `UPDATE catalog_clients SET published_at = … WHERE id = $1`. -/
def setPublished (publishedAt : Option Timestamp) (id : Uuid) (database : Database) :
    Nat × Database :=
  (database.clients.affected fun client => client.id = id,
    { database with
      clients := database.clients.update (fun client => client.id = id)
        fun client => { client with publishedAt }
      linked := by
        intro row member
        obtain ⟨old, present, rfl⟩ := List.mem_map.mp member
        unfold Table.revise
        split
        · exact database.linked old present
        · exact database.linked old present })

end Sql

/-- `set_published`: one statement, and a 404 where it finds no row. -/
def setPublished (publishedAt : Option Timestamp) (id : Uuid) (disconnected : Bool)
    (service : Service) : Except AppError Unit × Service :=
  if disconnected then (.error (.database .connection), service)
  else
    let (affected, database) := Sql.setPublished publishedAt id service.database
    if affected = 0 then (.error (.notFound "client not found"), { service with database })
    else (.ok (), { service with database })

theorem setPublished_alters (publishedAt : Option Timestamp) (id : Uuid) (database : Database) :
    Alters (Shelf.revise id (Entry.publish publishedAt)) database
      (Sql.setPublished publishedAt id database).2 := by
  have revised : ∀ other, (Sql.setPublished publishedAt id database).2.clients.find other =
      (database.clients.find other).map
        (Table.revise (fun client => client.id = id)
          fun client => { client with publishedAt }) := by
    intro other
    rw [Sql.setPublished, Table.find_update]
  constructor
  · apply shelf_of_revise revised
    · intro client _
      rfl
    · intro client
      rfl
  · refine housed_of_present rfl ?_
    intro other present
    rw [revised, Option.isSome_map]
    exact present

theorem setPublished_saves {publishedAt : Option Timestamp} {id : Uuid} {disconnected : Bool}
    {service following : Service} {reply : Except AppError Unit}
    (answered : setPublished publishedAt id disconnected service = (reply, following)) :
    (∃ error, reply = .error error ∧
      Alters (fun shelf => shelf) service.database following.database) ∨
    reply = .ok () ∧ (service.database.shelf id).isSome ∧
      Alters (Shelf.revise id (Entry.publish publishedAt)) service.database following.database := by
  have alters := setPublished_alters publishedAt id service.database
  have counted : (Sql.setPublished publishedAt id service.database).1 =
      service.database.clients.affected fun client => client.id = id := rfl
  unfold setPublished at answered
  simp only [counted] at answered
  split at answered
  · cases answered
    exact .inl ⟨_, rfl, .refl _⟩
  · split at answered
    · rename_i nowhere
      cases answered
      have absent : service.database.shelf id = none := by
        refine Option.map_eq_none_iff.mpr (Table.find_eq_none.mpr fun client member same => ?_)
        exact of_decide_eq_false (Table.affected_eq_zero.mp nowhere client member) same
      refine .inl ⟨_, rfl, ?_, alters.housed⟩
      exact alters.shelf.trans (Shelf.revise_absent absent _)
    · rename_i somewhere
      cases answered
      obtain ⟨client, member, named⟩ := Table.affected_pos.mp (Nat.pos_of_ne_zero somewhere)
      refine .inr ⟨rfl, ?_, alters⟩
      rw [Database.shelf, Table.find_eq_some.mpr ⟨member, of_decide_eq_true named⟩]
      rfl

/-! ## Requests one after another -/

def answer (service : Service) :
    CatalogRequest × List Bool → Option (Except AppError Unit × Service)
  | (.client request, faults) =>
      ((handleClient request).execute 0 faults service []).map fun run => (run.1, run.2.1)
  | (.publish now id, faults) => some (setPublished (some now) id (faults.headD false) service)
  | (.unpublish id, faults) => some (setPublished none id (faults.headD false) service)

def session (service : Service) : List (CatalogRequest × List Bool) →
    Option (List (CatalogRequest × Except AppError Unit) × Service)
  | [] => some ([], service)
  | call :: later => do
      let (reply, next) ← answer service call
      let (log, final) ← session next later
      pure ((call.1, reply) :: log, final)

theorem handleClient_turns (request : ClientRequest) {service : Service}
    (housed : service.database.Housed) :
    Process.Meets (.everyWay catalog) (fun reply following =>
      Shelf.Turn service.database.shelf (.client request) reply following.database.shelf ∧
        following.database.Housed) (handleClient request) service := by
  cases request with
  | create now body =>
      refine Fallible.meets_outcome.mpr ((Fallible.meets_bind _ _).mpr
        ((createClient_saves service housed now body).mono ?_ ?_))
      · rintro _ following ⟨id, free, alters⟩
        exact ⟨alters.shelf ▸ .created free trivial, alters.housed housed⟩
      · rintro error following (rfl | ⟨⟨id, free, alters⟩, told⟩)
        · exact ⟨.refused, housed⟩
        · exact ⟨alters.shelf ▸ .created free told, alters.housed housed⟩
  | update id body =>
      refine Fallible.meets_outcome.mpr ((Fallible.meets_bind _ _).mpr
        ((updateClient_saves service id body).mono ?_ ?_))
      · rintro _ following ⟨there, alters⟩
        exact ⟨alters.shelf ▸ .updated there trivial, alters.housed housed⟩
      · rintro error following (rfl | ⟨⟨there, alters⟩, told⟩)
        · exact ⟨.refused, housed⟩
        · exact ⟨alters.shelf ▸ .updated there told, alters.housed housed⟩
  | delete id =>
      refine Fallible.meets_outcome.mpr ((deleteClient_saves service id).mono ?_ ?_)
      · rintro ⟨⟩ following ⟨there, alters⟩
        exact ⟨alters.shelf ▸ .deleted there, alters.housed housed⟩
      · rintro error following rfl
        exact ⟨.refused, housed⟩

theorem answer_turns {service next : Service} {call : CatalogRequest × List Bool}
    {reply : Except AppError Unit} (housed : service.database.Housed)
    (answered : answer service call = some (reply, next)) :
    Shelf.Turn service.database.shelf call.1 reply next.database.shelf ∧ next.database.Housed := by
  obtain ⟨request, faults⟩ := call
  cases request with
  | client request =>
      obtain ⟨⟨outcome, after, events⟩, executed, same⟩ := Option.map_eq_some_iff.mp answered
      cases same
      exact Process.execute_everyWay (handleClient_turns request housed) executed
  | publish now id =>
      rcases setPublished_saves (Option.some.inj answered) with
        ⟨error, rfl, alters⟩ | ⟨rfl, there, alters⟩
      · exact ⟨alters.shelf ▸ .refused, alters.housed housed⟩
      · exact ⟨alters.shelf ▸ .published there, alters.housed housed⟩
  | unpublish id =>
      rcases setPublished_saves (Option.some.inj answered) with
        ⟨error, rfl, alters⟩ | ⟨rfl, there, alters⟩
      · exact ⟨alters.shelf ▸ .refused, alters.housed housed⟩
      · exact ⟨alters.shelf ▸ .unpublished there, alters.housed housed⟩

theorem session_follows {service final : Service} {calls : List (CatalogRequest × List Bool)}
    {log : List (CatalogRequest × Except AppError Unit)} (housed : service.database.Housed)
    (served : session service calls = some (log, final)) :
    Shelf.Follows service.database.shelf log final.database.shelf ∧ final.database.Housed := by
  induction calls generalizing service log with
  | nil =>
      cases served
      exact ⟨.nil, housed⟩
  | cons call later induction =>
      obtain ⟨⟨reply, next⟩, answered, continued⟩ := Option.bind_eq_some_iff.mp served
      obtain ⟨⟨rest, last⟩, followed, same⟩ := Option.bind_eq_some_iff.mp continued
      cases same
      obtain ⟨turn, kept⟩ := answer_turns housed answered
      obtain ⟨follows, ended⟩ := induction kept followed
      exact ⟨.cons turn follows, ended⟩

/-! ## What the launchers are shown -/

theorem find_loaded (row : ClientRow) (asked : String) (database : Database) (locale : String) :
    (ownRelations row asked database).locales.find? (fun text => text.1 = locale) =
      (database.textOf row.id locale).map fun text => (locale, text) := by
  have selects : ((fun text : String × ClientLocaleRow => decide (text.1 = locale)) ∘
      fun text : ClientLocale => (text.locale, text.text)) =
        fun text => decide (text.locale = locale) := rfl
  simp only [ownRelations, Sql.localesOf, Database.textOf, List.find?_map, List.find?_filter,
    Option.map_map, List.mem_singleton, selects, Bool.decide_and, decide_eq_true_eq]
  refine Option.map_congr fun text found => ?_
  have named := List.find?_some found
  simp only [Bool.and_eq_true, decide_eq_true_eq] at named
  rw [Function.comp_apply, named.2]

theorem described_speaks (database : Database) (client : CatalogClient) (locale : String) :
    (database.entryOf client).Speaks locale
      (resolveClientLocale (ownRelations client.row locale database).locales locale) := by
  have loaded : ∀ other, (ownRelations client.row locale database).locales.find?
      (fun text => text.1 = other) =
        ((database.entryOf client).texts other).map fun text => (other, text) :=
    find_loaded client.row locale database
  generalize database.entryOf client = entry at loaded ⊢
  generalize (ownRelations client.row locale database).locales = rows at loaded ⊢
  unfold Entry.Speaks resolveClientLocale pickLocale
  rw [loaded locale, loaded defaultLocale]
  cases entry.texts locale with
  | some text => rfl
  | none =>
      cases entry.texts defaultLocale with
      | some text => rfl
      | none =>
          cases rows with
          | nil => exact .inr ⟨fun other => Option.map_eq_none_iff.mp (loaded other).symm, rfl⟩
          | cons first rest =>
              refine .inl ⟨first.1, ?_⟩
              obtain ⟨text, there, same⟩ := Option.map_eq_some_iff.mp
                ((loaded first.1).symm.trans (List.find?_cons_of_pos (decide_eq_true rfl)))
              rw [there, ← same]
              rfl

theorem described_shows_entry (database : Database) (client : CatalogClient)
    (asked : CatalogQuery) :
    (database.entryOf client).Shows client.id asked (described asked database client.row) where
  id := rfl
  slug := rfl
  available := rfl
  versions := ⟨rfl, rfl, rfl, rfl⟩
  text := ⟨_, described_speaks database client (asked.locale.getD defaultLocale), rfl, rfl, rfl⟩
  bundle := by
    show ((client.bundleId.bind database.registry.bundles.find).map bundleSummary).map
      BundleSummaryDto.slug = database.slugOf client.bundleId
    rw [Option.map_map, Option.map_bind]
    rfl

/-- The rows that are selected are those of the entries that are published. -/
theorem shelf_eq_some {id : Uuid} {entry : Entry} {database : Database} :
    database.shelf id = some entry ↔
      ∃ client ∈ database.clients.rows, client.id = id ∧ database.entryOf client = entry := by
  simp only [Database.shelf, Option.map_eq_some_iff, Table.find_eq_some, and_assoc]

theorem listPublished_lists (database : Database) (asked : CatalogQuery) :
    ∃ shown, database.shelf.Lists asked shown
      ((Sql.listPublished database).map (described asked database)) := by
  refine ⟨(orderBy Sql.clientRank (database.clients.rows.filter (·.publishedAt.isSome))).map
    fun client => (client.id, database.entryOf client), ?_, ?_, ?_, ?_⟩
  · rw [List.map_map]
    exact selected_apart database _
  · intro id entry
    simp only [List.mem_map, mem_orderBy, List.mem_filter, Prod.mk.injEq, shelf_eq_some]
    constructor
    · rintro ⟨client, ⟨member, published⟩, rfl, rfl⟩
      exact ⟨⟨client, member, rfl, rfl⟩, published⟩
    · rintro ⟨⟨client, member, rfl, rfl⟩, published⟩
      exact ⟨client, ⟨member, published⟩, rfl, rfl⟩
  · rw [List.pairwise_map]
    exact orderBy_pairwise Sql.clientRank _
  · rw [Sql.listPublished, List.map_map, List.forall₂_map_left_iff, List.forall₂_map_right_iff,
      List.forall₂_same]
    exact fun client _ => described_shows_entry database client asked

theorem publishedClient_finds (database : Database) (asked : CatalogQuery) (named : Option Uuid)
    (ident : String) : database.shelf.Finds asked named ident
      ((Sql.publishedClient named ident database).map (described asked database)) := by
  unfold Sql.publishedClient Sql.publishedByIdent
  rw [Option.map_map]
  cases first : (orderBy (fun row : CatalogClient => decide (some row.id ≠ named))
    (database.clients.rows.filter fun row => row.publishedAt.isSome &&
      (some row.id = named || row.slug = ident))).head? with
  | none =>
      intro id entry there published
      obtain ⟨client, member, rfl, rfl⟩ := shelf_eq_some.mp there
      have shown : client.publishedAt.isSome := published
      have missed : client ∉ database.clients.rows.filter fun row => row.publishedAt.isSome &&
          (some row.id = named || row.slug = ident) := by
        rw [← mem_orderBy fun row : CatalogClient => decide (some row.id ≠ named),
          List.head?_eq_none_iff.mp first]
        exact List.not_mem_nil
      constructor
      · rintro rfl
        exact missed (List.mem_filter.mpr ⟨member, by simp [shown]⟩)
      · rintro rfl
        exact missed (List.mem_filter.mpr ⟨member, by simp [shown, Database.entryOf]⟩)
  | some client =>
      obtain ⟨member, chosen⟩ := List.mem_filter.mp ((mem_orderBy _).mp (List.mem_of_head? first))
      simp only [Bool.and_eq_true, Bool.or_eq_true, decide_eq_true_eq] at chosen
      refine ⟨client.id, database.entryOf client, shelf_eq_some.mpr ⟨client, member, rfl, rfl⟩,
        chosen.1, described_shows_entry database client asked, ?_, ?_⟩
      · exact chosen.2.imp_left Eq.symm
      · rintro other there here published rfl
        obtain ⟨rival, present, rfl, rfl⟩ := shelf_eq_some.mp here
        have shown : rival.publishedAt.isSome := published
        have least := orderBy_head_le _ first (List.mem_filter.mpr ⟨present, by simp [shown]⟩)
        by_contra different
        simp only [ne_eq, Option.some.injEq, Ne.symm different, not_false_eq_true, decide_true,
          not_true_eq_false, decide_false] at least
        exact absurd least (by decide)

/-! ## The catalog over its requests -/

/-- A request changes the shelf as a whole or not at all. The launchers are shown the entries
that are on it then, in the list and one by one. -/
theorem catalog_follows_shelf {start final : Service} {calls : List (CatalogRequest × List Bool)}
    {log : List (CatalogRequest × Except AppError Unit)} (housed : start.database.Housed)
    (served : session start calls = some (log, final)) :
    Shelf.Follows start.database.shelf log final.database.shelf ∧
    (∀ asked, ∃ shown dtos, final.database.shelf.Lists asked shown dtos ∧
      (listClients asked).Reads final dtos) ∧
    ∀ asked parse ident, ∃ found, final.database.shelf.Finds asked (parse ident) ident found ∧
      (loadClient parse ident asked).Reads final found := by
  refine ⟨(session_follows housed served).1, fun asked => ?_, fun asked parse ident => ?_⟩
  · obtain ⟨shown, lists⟩ := listPublished_lists final.database asked
    exact ⟨shown, _, lists, listClients_reads asked⟩
  · exact ⟨_, publishedClient_finds final.database asked (parse ident) ident,
      loadClient_reads asked parse ident⟩

/-- One client is made and shown, another one is made beside it and stays a draft. -/
def shownAndDrafted : List (CatalogRequest × List Bool) :=
  [(.client (.create 0 { shownClient "survival" none with
      locales := [⟨"en", "Survival", none, none⟩] }), []),
   (.publish 1 1, []),
   (.client (.create 2 (shownClient "creative" (some (some "survival")))), [])]

def shownTitles (service : Service) : Option (List String) :=
  ((listClients ⟨none⟩).answered [] service).map (·.map (·.title))

theorem catalog_follows_shelf_drafted : ∃ log final,
    session emptyService shownAndDrafted = some (log, final) ∧
      Shelf.Follows (fun _ => none) log final.database.shelf ∧
      ∃ shown dtos, final.database.shelf.Lists ⟨none⟩ shown dtos ∧
        dtos.map (·.title) = ["Survival"] := by
  have titles : (session emptyService shownAndDrafted).bind (fun run => shownTitles run.2) =
      some ["Survival"] := by decide +kernel
  obtain ⟨⟨log, final⟩, served, shows⟩ := Option.bind_eq_some_iff.mp titles
  have housed : emptyService.database.Housed := fun row member => (by cases member)
  obtain ⟨follows, listed, -⟩ := catalog_follows_shelf housed served
  obtain ⟨shown, dtos, lists, reads⟩ := listed ⟨none⟩
  obtain ⟨given, answered, named⟩ := Option.map_eq_some_iff.mp shows
  rw [reads.of_answered answered] at named
  exact ⟨log, final, served, follows, shown, dtos, lists, named⟩

end Loontail.Catalog
