import Loontail.Catalog.Evolution

/-! # What the transaction of an upsert makes

Part by part, whichever of its statements fails: each part that ends well has only written
the client's rows, and says what it found. -/

namespace Loontail.Catalog

open Concurrency Relational Text
open Dialect Transactional

section Parts

variable {stores : Service} {log : List Statement} {seen : Database} {id : Uuid}

/-- The transaction has come from one view of the tables to another, and nothing shows. -/
structure Grown (stores : Service) (id : Uuid) (seen : Database) (longer : List Statement)
    (following : Service) (after : Database) : Prop where
  still : following = stores
  replayed : sql.replay stores.database longer = .ok after
  revised : Revised id seen after

abbrev Untouched (stores : Service) : AppError → Service → Prop := fun _ following =>
  following = stores

theorem insideAll_grown (id : Uuid) {statements : List Statement}
    (replayed : sql.replay stores.database log = .ok seen)
    (all : ∀ statement ∈ statements, statement.Revises id) :
    (insideAll log statements).Meets (.everyWay catalog)
      (fun longer following => ∃ after, Grown stores id seen longer following after ∧
        sql.replay seen statements = .ok after)
      (Untouched stores) stores := by
  refine everyWay_insideAll replayed (fun _ => rfl) fun after continued => ?_
  refine ⟨after, ⟨rfl, ?_, replay_revises all continued⟩, continued⟩
  rw [replay_append, replayed]
  exact continued

theorem writeClientLocales_grown (replayed : sql.replay stores.database log = .ok seen)
    (locales : List ClientLocaleInput) :
    (writeClientLocales log id locales).Meets (.everyWay catalog)
      (fun longer following => ∃ after, Grown stores id seen longer following after)
      (Untouched stores) stores := by
  refine (insideAll_grown id replayed ?_).mono ?_ fun _ _ same => same
  · intro statement member
    obtain ⟨input, -, rfl⟩ := List.mem_map.mp member
    trivial
  · rintro longer following ⟨after, grown, -⟩
    exact ⟨after, grown⟩

theorem findBundleIdBySlug_everyWay (replayed : sql.replay stores.database log = .ok seen)
    (slug : String) :
    (findBundleIdBySlug log slug).Meets (.everyWay catalog)
      (fun found following => following = stores ∧
        found = (Bundles.Sql.findBySlug slug seen.registry).map (·.id))
      (Untouched stores) stores := by
  unfold findBundleIdBySlug
  refine (Fallible.meets_bind _ _).mpr (everyWay_inside replayed (fun _ => rfl) ?_)
  rintro reply after executed
  cases executed
  exact ⟨rfl, rfl⟩

theorem bundleSlugById_everyWay (replayed : sql.replay stores.database log = .ok seen)
    (bundleId : Uuid) :
    (bundleSlugById log bundleId).Meets (.everyWay catalog)
      (fun found following => following = stores ∧
        found = (seen.registry.bundles.find bundleId).map (·.slug))
      (Untouched stores) stores := by
  unfold bundleSlugById
  refine everyWay_inside replayed (fun _ => rfl) ?_
  rintro reply after executed
  cases executed
  exact ⟨rfl, rfl⟩

theorem dropOtherLocales_grown (replayed : sql.replay stores.database log = .ok seen)
    (body : UpsertClient) :
    (dropOtherLocales log id body).Meets (.everyWay catalog)
      (fun longer following => ∃ after, Grown stores id seen longer following after)
      (Untouched stores) stores := by
  unfold dropOtherLocales
  split
  · refine (insideAll_grown id replayed ?_).mono ?_ fun _ _ same => same
    · intro statement member
      obtain rfl := List.mem_singleton.mp member
      trivial
    · rintro longer following ⟨after, grown, -⟩
      exact ⟨after, grown⟩
  · exact ⟨seen, rfl, replayed, .refl id seen⟩

/-! ## The link -/

structure Provided (slug : String) (before : Database) (bundleId : Uuid) (provisioned : Bool) :
    Prop where
  found : provisioned = false →
    ∃ bundle ∈ before.registry.bundles.rows, bundle.slug = slug ∧ bundle.id = bundleId
  new : provisioned = true → ∀ bundle ∈ before.registry.bundles.rows, bundle.slug ≠ slug

theorem provisionBundleRow_grown (id : Uuid) (replayed : sql.replay stores.database log = .ok seen)
    (slug name : String) :
    (provisionBundleRow log slug name).Meets (.everyWay catalog)
      (fun done following => ∃ after, Grown stores id seen done.2 following after ∧
        ∀ bundle ∈ seen.registry.bundles.rows, bundle.slug ≠ slug)
      (Untouched stores) stores := by
  unfold provisionBundleRow
  simp only [Fallible.meets_bind, Fallible.meets_lift, Fallible.meets_refuse]
  refine ⟨fun _ _ => trivial, fun _ _ => ?_⟩
  refine (findBundleIdBySlug_everyWay replayed slug).mono ?_ fun _ _ same => same
  rintro found following ⟨rfl, rfl⟩
  refine ⟨fun _ => rfl, fun absent => ?_⟩
  refine everyWay_inside replayed (fun _ => rfl) fun bundleId after executed => ?_
  have revises : Statement.Revises id (.ofRegistry (.insertBundle name slug)) := trivial
  refine ⟨after, ⟨rfl, replay_concat replayed executed, execute_revises revises executed⟩, ?_⟩
  rw [Option.isSome_map, Option.isSome_eq_false_iff, Option.isNone_iff_eq_none] at absent
  simpa [Bundles.Sql.findBySlug] using absent

theorem findOrProvision_grown (id : Uuid) (replayed : sql.replay stores.database log = .ok seen)
    (slug : String) (locales : List ClientLocaleInput) :
    (findOrProvision log slug locales).Meets (.everyWay catalog)
      (fun done following => ∃ after, Grown stores id seen done.2.2 following after ∧
        Provided slug seen done.1 done.2.1)
      (Untouched stores) stores := by
  unfold findOrProvision
  rw [Fallible.meets_bind]
  refine (findBundleIdBySlug_everyWay replayed slug).mono ?_ fun _ _ same => same
  rintro found following ⟨rfl, rfl⟩
  split
  · rename_i bundleId there
    obtain ⟨bundle, found, rfl⟩ := Option.map_eq_some_iff.mp there
    refine ⟨seen, ⟨rfl, replayed, .refl id seen⟩, fun _ => ?_, fun impossible => Bool.noConfusion impossible⟩
    exact ⟨bundle, List.mem_of_find?_eq_some found, by simpa using List.find?_some found, rfl⟩
  · rw [Fallible.meets_bind]
    refine (provisionBundleRow_grown id replayed slug _).mono ?_ fun _ _ same => same
    rintro ⟨bundleId, longer⟩ last ⟨after, grown, free⟩
    exact ⟨after, grown, ⟨fun impossible => Bool.noConfusion impossible, fun _ => free⟩⟩

structure Linking (id : Uuid) (slug : String) (before : Database) (linked : LinkedBundle)
    (after : Database) : Prop where
  slug_eq : linked.effectiveSlug = slug
  provided : Provided slug before linked.bundleId linked.provisioned
  linked : ∀ client, before.clients.find id = some client →
    ∃ now, after.clients.find id = some now ∧ now.bundleId = some linked.bundleId

theorem linkOwnedBundle_grown (replayed : sql.replay stores.database log = .ok seen)
    (slug : String) (locales : List ClientLocaleInput) :
    (linkOwnedBundle log id slug locales).Meets (.everyWay catalog)
      (fun done following => ∃ after, Grown stores id seen done.2 following after ∧
        Linking id slug seen done.1 after)
      (Untouched stores) stores := by
  unfold linkOwnedBundle
  rw [Fallible.meets_bind]
  refine (findOrProvision_grown id replayed slug locales).mono ?_ fun _ _ same => same
  rintro ⟨bundleId, provisioned, longer⟩ following ⟨middle, ⟨rfl, reached, earlier⟩, provided⟩
  rw [Fallible.meets_bind]
  refine (insideAll_grown id reached ?_).mono ?_ fun _ _ same => same
  · intro statement member
    obtain rfl := List.mem_singleton.mp member
    rfl
  · rintro longest last ⟨after, ⟨rfl, ended, later⟩, linking⟩
    refine ⟨after, ⟨rfl, ended, earlier.trans later⟩, rfl, provided, fun client found => ?_⟩
    obtain ⟨now, there⟩ := Option.isSome_iff_exists.mp (earlier.present (by rw [found]; rfl))
    rw [replay] at linking
    split at linking
    · rename_i reply last executed
      cases linking
      obtain ⟨-, revised⟩ := linkBundle_find executed
      refine ⟨_, by rw [revised, there]; rfl, ?_⟩
      have here : now.id = id := (Table.find_eq_some.mp there).2
      simp [Table.revise, here]
    · cases linking

theorem resolveOwnedBundleSlug_everyWay (replayed : sql.replay stores.database log = .ok seen)
    (body : UpsertClient) (oldBundleId : Option Uuid) :
    (resolveOwnedBundleSlug log body oldBundleId).Meets (.everyWay catalog)
      (fun slug following => following = stores ∧ (body.bundleSlug = none →
        ∀ old bundle, oldBundleId = some old → seen.registry.bundles.find old = some bundle →
          bundle.slug = slug))
      (Untouched stores) stores := by
  unfold resolveOwnedBundleSlug
  split
  · rename_i explicit asked
    refine ⟨rfl, fun absent => ?_⟩
    simp [requestedBundleSlug, absent] at asked
  · split
    · rename_i old _
      rw [Fallible.meets_bind]
      refine (bundleSlugById_everyWay replayed old).mono ?_ fun _ _ same => same
      rintro found following ⟨rfl, rfl⟩
      refine ⟨rfl, fun _ other bundle same there => ?_⟩
      cases same
      rw [there]
      rfl
    · rename_i unlinked
      refine ⟨rfl, fun absent old bundle same _ => ?_⟩
      exact (unlinked old absent same).elim

/-! ## The bundle that is left behind -/

structure Destroyed (old : Uuid) (deleteOrphaned : Bool) (slug : String)
    (before after : Database) : Prop where
  unlinked : ∀ client ∈ before.clients.rows, client.bundleId ≠ some old
  named : ∃ bundle, before.registry.bundles.find old = some bundle ∧ bundle.slug = slug
  allowed : deleteOrphaned = true ∨ Bundles.Sql.ofBundle old before.registry = []
  left : after = Sql.withRegistry (Bundles.Sql.deleteBundle old before.registry) before

def Stranding (old : Uuid) (deleteOrphaned : Bool) (before : Database) (stranded : Stranded)
    (after : Database) : Prop :=
  match stranded with
  | .deleted slug => Destroyed old deleteOrphaned slug before after
  | _ => after = before

theorem strandOldBundle_everyWay (replayed : sql.replay stores.database log = .ok seen)
    (old : Uuid) (deleteOrphaned : Bool) :
    (strandOldBundle log old deleteOrphaned).Meets (.everyWay catalog)
      (fun done following => following = stores ∧ ∃ after,
        sql.replay stores.database done.2 = .ok after ∧
        Stranding old deleteOrphaned seen done.1 after)
      (Untouched stores) stores := by
  unfold strandOldBundle
  refine (Fallible.meets_bind _ _).mpr (everyWay_inside replayed (fun _ => rfl) ?_)
  rintro references after executed
  cases executed
  split
  · exact ⟨rfl, seen, replayed, rfl⟩
  · rename_i unreferenced
    rw [Fallible.meets_bind]
    refine (bundleSlugById_everyWay replayed old).mono ?_ fun _ _ same => same
    rintro found following ⟨rfl, rfl⟩
    split
    · exact ⟨rfl, seen, replayed, rfl⟩
    · rename_i slug named
      refine (Fallible.meets_bind _ _).mpr (everyWay_inside replayed (fun _ => rfl) ?_)
      rintro artifacts after executed
      cases executed
      split
      · rename_i allowed
        refine (Fallible.meets_bind _ _).mpr (everyWay_insideAll replayed (fun _ => rfl) ?_)
        rintro after deleted
        cases deleted
        refine ⟨rfl, _, replay_concat replayed rfl, ?_, ?_, ?_, rfl⟩
        · intro client member linked
          have count := Table.affected_eq_zero.mp (Nat.eq_zero_of_not_pos unreferenced) client member
          rw [linked, decide_eq_false_iff_not] at count
          exact count rfl
        · exact Option.map_eq_some_iff.mp named
        · exact allowed.imp_right List.eq_nil_of_length_eq_zero
      · exact ⟨rfl, seen, replayed, rfl⟩

/-! ## An update -/

structure Relinked (id : Uuid) (body : UpsertClient) (before : Database) (linked : LinkedBundle)
    (middle : Database) : Prop where
  revised : Revised id before middle
  link : ∃ now, middle.clients.find id = some now ∧ now.bundleId = some linked.bundleId
  new : linked.provisioned = true →
    ∀ bundle ∈ before.registry.bundles.rows, bundle.slug ≠ linked.effectiveSlug
  kept : body.bundleSlug = none → ∀ client old, before.clients.find id = some client →
    client.bundleId = some old → linked.bundleId = old

/-- What an update makes of the tables. -/
structure Updated (id : Uuid) (body : UpsertClient) (before : Database) (linked : LinkedBundle)
    (stranded : Stranded) (after : Database) : Prop where
  relinked : ∃ client middle, before.clients.find id = some client ∧
    Relinked id body before linked middle ∧
    (after = middle ∧ (∀ slug, stranded ≠ .deleted slug) ∨ ∃ old slug, client.bundleId = some old ∧
      old ≠ linked.bundleId ∧ stranded = .deleted slug ∧
      Destroyed old body.deleteOrphanedBundle slug middle after)

theorem Revised.mem_bundles {before after : Database} (revised : Revised id before after)
    {bundle : Bundles.Bundle} (member : bundle ∈ before.registry.bundles.rows) :
    bundle ∈ after.registry.bundles.rows := by
  have found := Table.find_eq_some.mpr ⟨member, rfl⟩
  have kept := (revised.bundles bundle.id (by rw [found]; rfl)).row
  exact (Table.find_eq_some.mp (kept.trans found)).1

theorem relinked_of_linking {body : UpsertClient} {before middle after : Database}
    {client : CatalogClient} {slug : String} {linked : LinkedBundle}
    (found : before.clients.find id = some client) (earlier : Revised id before middle)
    (resolved : body.bundleSlug = none → ∀ old bundle, client.bundleId = some old →
      middle.registry.bundles.find old = some bundle → bundle.slug = slug)
    (later : Revised id middle after) (linking : Linking id slug middle linked after) :
    Relinked id body before linked after := by
  refine ⟨earlier.trans later, ?_, fun provisioned bundle member => ?_, ?_⟩
  · obtain ⟨now, there⟩ := Option.isSome_iff_exists.mp (earlier.present (by rw [found]; rfl))
    exact linking.linked now there
  · rw [linking.slug_eq]
    exact linking.provided.new provisioned bundle (earlier.mem_bundles member)
  · intro absent other old here link
    cases found.symm.trans here
    obtain ⟨bundle, there⟩ := Option.isSome_iff_exists.mp
      (before.linked client (Table.find_eq_some.mp found).1 old link)
    have kept := (earlier.bundles old (by rw [there]; rfl)).row.trans there
    obtain ⟨member, same⟩ := Table.find_eq_some.mp kept
    have slug_eq := resolved absent old bundle link kept
    cases provisioned : linked.provisioned with
    | true => exact (linking.provided.new provisioned bundle member slug_eq).elim
    | false =>
        obtain ⟨owner, among, ownerSlug, owned⟩ := linking.provided.found provisioned
        have equal : owner = bundle :=
          Table.eq_of_slot_eq among member rfl (congrArg some (slug_eq.trans ownerSlug.symm))
        rw [← owned, equal]
        exact same

theorem strandUnlinked_everyWay (replayed : sql.replay stores.database log = .ok seen)
    (oldBundleId : Option Uuid) (newBundleId : Uuid) (deleteOrphaned : Bool) :
    (strandUnlinked log oldBundleId newBundleId deleteOrphaned).Meets (.everyWay catalog)
      (fun done following => following = stores ∧ ∃ after,
        sql.replay stores.database done.2 = .ok after ∧
        (after = seen ∧ (∀ slug, done.1 ≠ .deleted slug) ∨ ∃ old slug, oldBundleId = some old ∧
          old ≠ newBundleId ∧ done.1 = .deleted slug ∧ Destroyed old deleteOrphaned slug seen after))
      (Untouched stores) stores := by
  unfold strandUnlinked
  split
  · rename_i old
    split
    · rename_i moved
      refine (strandOldBundle_everyWay replayed old deleteOrphaned).mono ?_ fun _ _ same => same
      rintro ⟨stranded, longer⟩ following ⟨rfl, after, reached, stranding⟩
      refine ⟨rfl, after, reached, ?_⟩
      cases stranded with
      | deleted slug => exact .inr ⟨old, slug, rfl, moved, rfl, stranding⟩
      | kept slug => exact .inl ⟨stranding, fun _ => Stranded.noConfusion⟩
      | none => exact .inl ⟨stranding, fun _ => Stranded.noConfusion⟩
    · exact ⟨rfl, seen, replayed, .inl ⟨rfl, fun _ => Stranded.noConfusion⟩⟩
  · exact ⟨rfl, seen, replayed, .inl ⟨rfl, fun _ => Stranded.noConfusion⟩⟩

theorem updateRows_everyWay (id : Uuid) (body : UpsertClient) (stores : Service) :
    (updateRows id body).Meets (.everyWay catalog)
      (fun done following => following = stores ∧ ∃ after,
        sql.replay stores.database done.2.2 = .ok after ∧
        Updated id body stores.database done.1 done.2.1 after)
      (Untouched stores) stores := by
  unfold updateRows
  refine (Fallible.meets_bind _ _).mpr (everyWay_inside rfl (fun _ => rfl) ?_)
  rintro reply after executed
  cases executed
  simp only [Fallible.meets_bind, Fallible.meets_okOr]
  refine ⟨fun _ => trivial, fun oldBundleId selected => ?_⟩
  obtain ⟨client, found, rfl⟩ := Option.map_eq_some_iff.mp selected
  refine everyWay_inside rfl (fun _ => rfl) fun reply renamed executed => ?_
  have first := execute_revises (show (Statement.updateClient id body.fields).Revises id from rfl)
    executed
  have begun : sql.replay stores.database [.updateClient id body.fields] = .ok renamed :=
    replay_concat (rfl : sql.replay stores.database [] = .ok stores.database) executed
  refine (writeClientLocales_grown begun body.locales).mono ?_ fun _ _ same => same
  rintro log following ⟨localized, ⟨rfl, replayed, second⟩⟩
  refine (dropOtherLocales_grown replayed body).mono ?_ fun _ _ same => same
  rintro log following ⟨middle, ⟨rfl, replayed, third⟩⟩
  have earlier := (first.trans second).trans third
  refine (resolveOwnedBundleSlug_everyWay replayed body client.bundleId).mono ?_ fun _ _ same => same
  rintro slug following ⟨rfl, resolved⟩
  refine (linkOwnedBundle_grown replayed slug body.locales).mono ?_ fun _ _ same => same
  rintro ⟨linked, log⟩ following ⟨relinked, ⟨rfl, replayed, fourth⟩, linking⟩
  have link := relinked_of_linking found earlier resolved fourth linking
  refine (strandUnlinked_everyWay replayed client.bundleId linked.bundleId
    body.deleteOrphanedBundle).mono ?_ fun _ _ same => same
  rintro ⟨stranded, log⟩ last ⟨rfl, after, replayed, ended⟩
  exact ⟨rfl, after, replayed, client, relinked, found, link, ended⟩

end Parts

end Loontail.Catalog
