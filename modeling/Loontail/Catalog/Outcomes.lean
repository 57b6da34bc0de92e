import Loontail.Catalog.Upserts

/-! # What the handlers of the clients leave

Rows and folders, whichever of their operations fails: a bundle survives unless it is the
one that the handler destroys. -/

namespace Loontail.Catalog

open Concurrency Disk Relational
open Bundles (Bundle DiskCall buildPath filesPath)
open Dialect Transactional

/-! ## Bundles that survive -/

def FolderKept (slug : String) (before after : Service) : Prop :=
  ∀ rest, after.devices.builds.find (slug :: rest) = before.devices.builds.find (slug :: rest)

structure Survives (bundle : Bundle) (before after : Service) : Prop where
  rows : BundleKept bundle.id before.database after.database
  folder : FolderKept bundle.slug before after

theorem Survives.refl (bundle : Bundle) (service : Service) : Survives bundle service service :=
  ⟨.of_registry rfl, fun _ => rfl⟩

theorem deleteBundle_kept {old other : Uuid} (apart : other ≠ old) (database : Database) :
    BundleKept other database
      (Sql.withRegistry (Bundles.Sql.deleteBundle old database.registry) database) := by
  constructor
  · refine Table.find_delete fun row _ here => ?_
    rw [decide_eq_false_iff_not, show row.id = other from here]
    exact apart
  · simp only [Sql.withRegistry, Bundles.Sql.deleteBundle, Bundles.Sql.ofBundle, Table.delete,
      List.filter_filter]
    refine List.filter_congr fun row _ => ?_
    by_cases owned : row.bundleId = other
    · simp [owned, apart]
    · simp [owned]

/-! ## Folders -/

section Folders

variable {stores : Service}

structure Within (slug : String) (before after : Service) : Prop where
  database : after.database = before.database
  folders : ∀ other, other ≠ slug → FolderKept other before after

theorem Within.refl (slug : String) (service : Service) : Within slug service service :=
  ⟨rfl, fun _ _ _ => rfl⟩

theorem onBuilds_everyWay {call : DiskCall} {onOk : Except IoError call.Answer → Service → Prop}
    {onError : AppError → Service → Prop} (failed : onOk (.error .device) stores)
    (performed : onOk (call.perform stores.devices.builds).1
      { stores with devices :=
        { stores.devices with builds := (call.perform stores.devices.builds).2 } }) :
    @Fallible.Meets catalog AppError (no_index (Except IoError call.Answer)) (onBuilds call)
      (.everyWay catalog) onOk onError stores := by
  intro result after occurs
  rcases occurs_onDevice occurs with ⟨rfl, rfl⟩ | ⟨fault, rfl⟩
  · exact performed
  · cases fault
    exact failed

theorem ensureBundleDir_within (slug : String) :
    (ensureBundleDir slug).Meets (.everyWay catalog) (fun _ => Within slug stores)
      (fun _ => Within slug stores) stores := by
  have made : Within slug stores { stores with devices := { stores.devices with
      builds := ((DiskCall.createDirAll (filesPath slug)).perform stores.devices.builds).2 } } := by
    refine ⟨rfl, fun other apart rest => ?_⟩
    rcases DiskCall.settle_cases stores.devices.builds
      (stores.devices.builds.createDirAll (filesPath slug)) with
      ⟨tree, created, settled⟩ | ⟨error, -, settled⟩
    · simp only [DiskCall.perform, settled]
      refine Tree.createDirAll_apart created fun way => apart ?_
      exact (List.cons_prefix_cons.mp way).1
    · simp only [DiskCall.perform, settled]
  unfold ensureBundleDir
  refine (Fallible.meets_bind _ _).mpr (onBuilds_everyWay (.refl slug stores) ?_)
  split
  · exact made
  · exact made

theorem removeBundleDir_within (slug : String) :
    (removeBundleDir slug).Meets (.everyWay catalog) (fun _ => Within slug stores)
      (fun _ _ => False) stores := by
  have gone : Within slug stores { stores with devices := { stores.devices with
      builds := ((DiskCall.removeDirAll (buildPath slug)).perform stores.devices.builds).2 } } := by
    refine ⟨rfl, fun other apart rest => ?_⟩
    rcases DiskCall.settle_cases stores.devices.builds
      (stores.devices.builds.removeDirAll (buildPath slug)) with
      ⟨tree, removed, settled⟩ | ⟨error, -, settled⟩
    · simp only [DiskCall.perform, settled]
      refine Tree.removeDirAll_keeps removed fun below => apart ?_
      exact (List.cons_prefix_cons.mp below).1.symm
    · simp only [DiskCall.perform, settled]
  unfold removeBundleDir
  refine (Fallible.meets_bind _ _).mpr (onBuilds_everyWay (.refl slug stores) ?_)
  split
  · exact (Fallible.meets_bind _ _).mpr (onBuilds_everyWay (.refl slug stores) gone)
  · exact .refl slug stores

end Folders

/-! ## An update -/

/-- What an update has done by its end, however it ends. -/
inductive UpdateLeaves (id : Uuid) (body : UpsertClient) (before : Service) : Service → Prop
  | nothing : UpdateLeaves id body before before
  | rows {after : Service} {linked : LinkedBundle} {stranded : Stranded}
      (updated : Updated id body before.database linked stranded after.database)
      (folders : ∀ slug, (linked.provisioned = true → slug ≠ linked.effectiveSlug) →
        stranded ≠ .deleted slug → FolderKept slug before after) :
      UpdateLeaves id body before after

theorem updateClient_everyWay (id : Uuid) (body : UpsertClient) (stores : Service) :
    (updateClient id body).Meets (.everyWay catalog) (fun _ => UpdateLeaves id body stores)
      (fun _ => UpdateLeaves id body stores) stores := by
  unfold updateClient
  refine (Fallible.meets_bind _ _).mpr (everyWay_begin (fun _ => .nothing) ?_)
  rw [Fallible.meets_bind]
  refine (updateRows_everyWay id body stores).mono ?_ fun _ following same => same ▸ .nothing
  rintro ⟨linked, stranded, log⟩ following ⟨rfl, after, replayed, updated⟩
  refine (Fallible.meets_bind _ _).mpr (everyWay_commit replayed (fun _ => .nothing) ?_)
  have made : (Fallible.whenever linked.provisioned (ensureBundleDir linked.effectiveSlug)).Meets
      (.everyWay catalog)
      (fun _ last => last.database = after ∧ ∀ slug, (linked.provisioned = true →
        slug ≠ linked.effectiveSlug) → FolderKept slug following last)
      (fun _ last => last.database = after ∧ ∀ slug, (linked.provisioned = true →
        slug ≠ linked.effectiveSlug) → FolderKept slug following last)
      { following with database := after } := by
    refine (Fallible.meets_whenever _ _).mpr ⟨fun provisioned => ?_, fun _ => ?_⟩
    · refine (ensureBundleDir_within linked.effectiveSlug).mono ?_ ?_
      · exact fun _ last within => ⟨within.database, fun slug apart =>
          within.folders slug (apart provisioned)⟩
      · exact fun _ last within => ⟨within.database, fun slug apart =>
          within.folders slug (apart provisioned)⟩
    · exact ⟨rfl, fun slug _ _ => rfl⟩
  refine (Fallible.meets_bind _ _).mpr ?_
  refine made.mono ?_ ?_
  · rintro _ last ⟨rfl, folders⟩
    split
    · rename_i slug
      have gone : ∀ ended : Service, Within slug last ended → UpdateLeaves id body following ended := by
        intro ended within
        refine .rows (within.database ▸ updated) fun other apart spared rest => ?_
        have elsewhere : other ≠ slug := fun same => spared (congrArg Stranded.deleted same.symm)
        exact (within.folders other elsewhere rest).trans (folders other apart rest)
      refine (Fallible.meets_bind _ _).mpr ((removeBundleDir_within slug).mono ?_ ?_)
      · exact fun _ ended within => gone ended within
      · exact fun _ _ impossible => impossible.elim
    · exact .rows updated fun slug apart _ => folders slug apart
    · exact .rows updated fun slug apart _ => folders slug apart
  · rintro _ last ⟨rfl, folders⟩
    exact .rows updated fun slug apart _ => folders slug apart

/-- The bundle was this client's alone, and may go: it is empty, or the body asks for it. -/
structure Abandoned (id : Uuid) (body : UpsertClient) (bundle : Bundle) (before after : Database) :
    Prop where
  linked : ∃ client, before.clients.find id = some client ∧ client.bundleId = some bundle.id
  alone : ∀ other ∈ before.clients.rows, other.id ≠ id → other.bundleId ≠ some bundle.id
  allowed : body.deleteOrphanedBundle = true ∨ Bundles.Sql.ofBundle bundle.id before.registry = []
  unlinked : ∀ client ∈ after.clients.rows, client.bundleId ≠ some bundle.id

theorem unlinked_of_deleted {old : Uuid} {database : Database} {client : CatalogClient}
    (member : client ∈ (Sql.withRegistry (Bundles.Sql.deleteBundle old database.registry)
      database).clients.rows) : client.bundleId ≠ some old := by
  intro linked
  have there := Database.linked _ client member old linked
  obtain ⟨bundle, found⟩ := Option.isSome_iff_exists.mp there
  obtain ⟨present, same⟩ := Table.find_eq_some.mp found
  have spared := (Table.mem_delete.mp present).2
  rw [decide_eq_false_iff_not] at spared
  exact spared same

theorem abandoned_of_destroyed {id : Uuid} {body : UpsertClient} {bundle : Bundle} {slug : String}
    {before middle after : Database} {client : CatalogClient}
    (found : before.clients.find id = some client) (linked : client.bundleId = some bundle.id)
    (revised : Revised id before middle) (kept : BundleKept bundle.id before middle)
    (destroyed : Destroyed bundle.id body.deleteOrphanedBundle slug middle after) :
    Abandoned id body bundle before after where
  linked := ⟨client, found, linked⟩
  alone := fun other member apart => by
    have same := revised.others other.id apart
    rw [Table.find_eq_some.mpr ⟨member, rfl⟩] at same
    exact destroyed.unlinked other (Table.find_eq_some.mp same).1
  allowed := kept.artifacts ▸ destroyed.allowed
  unlinked := fun other member => by
    rw [destroyed.left] at member
    exact unlinked_of_deleted member

/-- A bundle survives an update, or it was abandoned by it. -/
theorem UpdateLeaves.survives {id : Uuid} {body : UpsertClient} {before after : Service}
    (leaves : UpdateLeaves id body before after) {bundle : Bundle}
    (member : bundle ∈ before.database.registry.bundles.rows) :
    Survives bundle before after ∨ Abandoned id body bundle before.database after.database := by
  cases leaves with
  | nothing => exact .inl (.refl bundle before)
  | @rows _ linked stranded updated folders =>
      obtain ⟨client, middle, found, relinked, outcome⟩ := updated.relinked
      have there : (before.database.registry.bundles.find bundle.id).isSome := by
        rw [Table.find_eq_some.mpr ⟨member, rfl⟩]
        rfl
      have kept := relinked.revised.bundles bundle.id there
      have old : linked.provisioned = true → bundle.slug ≠ linked.effectiveSlug :=
        fun provisioned => relinked.new provisioned bundle member
      rcases outcome with ⟨same, spared⟩ | ⟨left, slug, link, -, deleted, destroyed⟩
      · exact .inl ⟨same ▸ kept, folders bundle.slug old (spared bundle.slug)⟩
      · by_cases same : bundle.id = left
        · subst same
          exact .inr (abandoned_of_destroyed found link relinked.revised kept destroyed)
        · refine .inl ⟨kept.trans (destroyed.left ▸ deleteBundle_kept same middle), ?_⟩
          refine folders bundle.slug old fun stranded => same ?_
          obtain ⟨other, named, slug_eq⟩ := destroyed.named
          obtain ⟨present, owner⟩ := Table.find_eq_some.mp named
          have equal : slug = bundle.slug := Stranded.deleted.inj (deleted.symm.trans stranded)
          rw [Table.eq_of_slot_eq (relinked.revised.mem_bundles member) present rfl
            (congrArg some (slug_eq.trans equal))]
          exact owner

theorem UpdateLeaves.link {id : Uuid} {body : UpsertClient} {before after : Service}
    (leaves : UpdateLeaves id body before after) (absent : body.bundleSlug = none)
    {client : CatalogClient} {old : Uuid} (found : before.database.clients.find id = some client)
    (linked : client.bundleId = some old) :
    ∃ now, after.database.clients.find id = some now ∧ now.bundleId = some old := by
  cases leaves with
  | nothing => exact ⟨client, found, linked⟩
  | rows updated folders =>
      obtain ⟨given, middle, there, relinked, outcome⟩ := updated.relinked
      cases found.symm.trans there
      have kept := relinked.kept absent client old found linked
      rcases outcome with ⟨same, -⟩ | ⟨left, slug, link, moved, -⟩
      · obtain ⟨now, present, link⟩ := relinked.link
        exact ⟨now, same ▸ present, kept ▸ link⟩
      · exact (moved ((Option.some.inj (link.symm.trans linked)).trans kept.symm)).elim

/-! ## A creation -/

def AllSurvive (before after : Service) : Prop :=
  ∀ bundle ∈ before.database.registry.bundles.rows, Survives bundle before after

theorem AllSurvive.refl (service : Service) : AllSurvive service service :=
  fun bundle _ => .refl bundle service

theorem createClient_everyWay (now : Timestamp) (body : UpsertClient) (stores : Service) :
    (createClient now body).Meets (.everyWay catalog) (fun _ => AllSurvive stores)
      (fun _ => AllSurvive stores) stores := by
  unfold createClient
  refine (Fallible.meets_bind _ _).mpr (everyWay_begin (fun _ => .refl stores) ?_)
  refine (Fallible.meets_bind _ _).mpr (everyWay_inside rfl (fun _ => .refl stores) ?_)
  rintro id inserted executed
  have first := insertClient_revised executed
  have begun := replay_concat (rfl : sql.replay stores.database [] = .ok stores.database) executed
  rw [Fallible.meets_bind]
  refine (@writeClientLocales_grown _ _ _ id begun body.locales).mono ?_
    fun _ following same => same ▸ .refl stores
  rintro log following ⟨localized, ⟨rfl, replayed, second⟩⟩
  rw [Fallible.meets_bind]
  refine (@linkOwnedBundle_grown _ _ _ id replayed _ body.locales).mono ?_
    fun _ following same => same ▸ .refl _
  rintro ⟨linked, log⟩ following ⟨after, ⟨rfl, replayed, third⟩, linking⟩
  have earlier := first.trans second
  have whole := earlier.trans third
  refine (Fallible.meets_bind _ _).mpr (everyWay_commit replayed (fun _ => .refl _) ?_)
  have rows : ∀ bundle ∈ following.database.registry.bundles.rows,
      BundleKept bundle.id following.database after := fun bundle member =>
    whole.bundles bundle.id (by rw [Table.find_eq_some.mpr ⟨member, rfl⟩]; rfl)
  have survive : ∀ last : Service,
      Within linked.effectiveSlug { following with database := after } last →
      linked.provisioned = true → AllSurvive following last := by
    intro last within provisioned bundle member
    refine ⟨within.database ▸ rows bundle member, within.folders bundle.slug ?_⟩
    rw [linking.slug_eq]
    exact linking.provided.new provisioned bundle (earlier.mem_bundles member)
  refine (Fallible.meets_bind _ _).mpr ((Fallible.meets_whenever _ _).mpr
    ⟨fun provisioned => ?_, fun _ bundle member => ⟨rows bundle member, fun _ => rfl⟩⟩)
  refine (ensureBundleDir_within linked.effectiveSlug).mono ?_ ?_
  · exact fun _ last within => survive last within provisioned
  · exact fun _ last within => survive last within provisioned

/-! ## A deletion -/

def LinkedFrom (id : Uuid) (bundle : Bundle) (database : Database) : Prop :=
  ∃ client, database.clients.find id = some client ∧ client.bundleId = some bundle.id

theorem deleteRows_everyWay (id : Uuid) (stores : Service) :
    (deleteRows id).Meets (.everyWay catalog)
      (fun done following => following = stores ∧ ∃ after,
        sql.replay stores.database done.2 = .ok after ∧
        (∀ bundle ∈ stores.database.registry.bundles.rows,
          ¬LinkedFrom id bundle stores.database → BundleKept bundle.id stores.database after) ∧
        ∀ slug, done.1 = some slug → ∃ bundle ∈ stores.database.registry.bundles.rows,
          bundle.slug = slug ∧ LinkedFrom id bundle stores.database)
      (Untouched stores) stores := by
  unfold deleteRows
  refine (Fallible.meets_bind _ _).mpr (everyWay_inside rfl (fun _ => rfl) ?_)
  rintro reply after executed
  cases executed
  simp only [Fallible.meets_bind, Fallible.meets_okOr]
  refine ⟨fun _ => trivial, fun bundleId selected => ?_⟩
  obtain ⟨client, found, rfl⟩ := Option.map_eq_some_iff.mp selected
  refine everyWay_insideAll rfl (fun _ => rfl) fun after deleted => ?_
  cases deleted
  have begun : sql.replay stores.database ([] ++ [.deleteClient id]) =
      .ok (Sql.deleteClient id stores.database) := rfl
  split
  · rename_i bundleId link
    rw [Fallible.meets_bind]
    refine (bundleSlugById_everyWay begun bundleId).mono ?_ fun _ _ same => same
    rintro slug following ⟨rfl, rfl⟩
    refine (Fallible.meets_bind _ _).mpr (everyWay_insideAll begun (fun _ => rfl) ?_)
    rintro after deleted
    cases deleted
    refine ⟨rfl, _, replay_concat begun rfl, fun bundle member spared => ?_, fun slug named => ?_⟩
    · have apart : bundle.id ≠ bundleId := fun same => spared ⟨client, found, same ▸ link⟩
      have first : BundleKept bundle.id following.database
          (Sql.deleteClient id following.database) := .of_registry rfl
      exact first.trans (deleteBundle_kept apart _)
    · obtain ⟨bundle, there, same⟩ := Option.map_eq_some_iff.mp named
      obtain ⟨member, here⟩ := Table.find_eq_some.mp there
      exact ⟨bundle, member, same, client, found, link.trans (congrArg some here.symm)⟩
  · exact ⟨rfl, _, begun, fun bundle _ _ => .of_registry rfl, fun slug named => by cases named⟩

/-- Every bundle that the client does not link to survives its deletion. -/
theorem deleteClient_everyWay (id : Uuid) (stores : Service) :
    (deleteClient id).Meets (.everyWay catalog)
      (fun _ following => ∀ bundle ∈ stores.database.registry.bundles.rows,
        ¬LinkedFrom id bundle stores.database → Survives bundle stores following)
      (fun _ following => ∀ bundle ∈ stores.database.registry.bundles.rows,
        ¬LinkedFrom id bundle stores.database → Survives bundle stores following) stores := by
  have still : ∀ bundle ∈ stores.database.registry.bundles.rows,
      ¬LinkedFrom id bundle stores.database → Survives bundle stores stores :=
    fun bundle _ _ => .refl bundle stores
  unfold deleteClient
  refine (Fallible.meets_bind _ _).mpr (everyWay_begin (fun _ => still) ?_)
  rw [Fallible.meets_bind]
  refine (deleteRows_everyWay id stores).mono ?_ fun _ following same => same ▸ still
  rintro ⟨bundleSlug, log⟩ following ⟨rfl, after, replayed, rows, named⟩
  refine (Fallible.meets_bind _ _).mpr (everyWay_commit replayed (fun _ => still) ?_)
  have survive : ∀ last : Service, last.database = after → (∀ slug, bundleSlug ≠ some slug →
      FolderKept slug following last) → ∀ bundle ∈ following.database.registry.bundles.rows,
      ¬LinkedFrom id bundle following.database → Survives bundle following last := by
    rintro last rfl folders bundle member spared
    refine ⟨rows bundle member spared, folders bundle.slug fun gone => spared ?_⟩
    obtain ⟨other, among, same, link⟩ := named bundle.slug gone
    rw [Table.eq_of_slot_eq member among rfl (congrArg some same)]
    exact link
  have removed : (bundleSlug.forM removeBundleDir).Meets (.everyWay catalog)
      (fun _ last => last.database = after ∧ ∀ slug, bundleSlug ≠ some slug →
        FolderKept slug following last)
      (fun _ _ => False) { following with database := after } := by
    cases bundleSlug with
    | none => exact ⟨rfl, fun _ _ _ => rfl⟩
    | some slug =>
        refine (removeBundleDir_within slug).mono ?_ fun _ _ impossible => impossible
        exact fun _ last within => ⟨within.database, fun other apart =>
          within.folders other fun same => apart (congrArg some same.symm)⟩
  refine (Fallible.meets_bind _ _).mpr (removed.mono ?_ fun _ _ impossible => impossible.elim)
  rintro _ last ⟨same, folders⟩
  refine (Fallible.meets_bind _ _).mpr fun result ended occurs => ?_
  rcases occurs_onDevice occurs with ⟨rfl, rfl⟩ | ⟨-, rfl⟩
  · exact survive _ same folders
  · exact survive _ same folders

/-! ## Requests -/

def serve (service : Service) (call : ClientRequest × List Bool) : Option Service :=
  ((handleClient call.1).execute 0 call.2 service []).map fun run => run.2.1

theorem handled {Reply : Type} {handler : Handler Reply} {stores : Service}
    {holds : Service → Prop}
    (meets : handler.Meets (.everyWay catalog) (fun _ => holds) (fun _ => holds) stores) :
    Process.Meets (.everyWay catalog) (fun _ => holds)
      (do let _ ← handler : Handler Unit).run stores := by
  refine Fallible.meets_run.mpr ?_
  exact (Fallible.meets_bind _ _).mpr meets

end Loontail.Catalog
