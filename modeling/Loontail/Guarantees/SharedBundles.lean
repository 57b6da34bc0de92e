import Loontail.Catalog.Outcomes
import Loontail.Concurrency.Run

/-! # Whether shared bundles survive

Two clients may link to one bundle. An update asks who else links to the bundle that it
leaves behind; the deletion of a client does not ask. -/

namespace Loontail.Catalog

open Concurrency Relational
open Bundles (Bundle)
open Dialect Transactional

/-! ## One request -/

def ClientRequest.target : ClientRequest → Option Uuid
  | create .. => none
  | update id _ => some id
  | delete id => some id

def Spares (service : Service) (call : ClientRequest × List Bool) : Prop :=
  ∀ next, serve service call = some next → ∀ client ∈ service.database.clients.rows,
    call.1.target ≠ some client.id → ∀ bundle ∈ service.database.registry.bundles.rows,
      client.bundleId = some bundle.id → Survives bundle service next

/-- No other client links to the bundle of a client that is deleted. -/
def Undivided (service : Service) (call : ClientRequest × List Bool) : Prop :=
  match call.1 with
  | .delete id => ∀ client ∈ service.database.clients.rows, client.id = id →
      client.bundleId.isSome → ∀ other ∈ service.database.clients.rows, other.id ≠ id →
        other.bundleId ≠ client.bundleId
  | _ => True

instance Undivided.decidable (service : Service) :
    (call : ClientRequest × List Bool) → Decidable (Undivided service call)
  | (.create .., _) => .isTrue trivial
  | (.update .., _) => .isTrue trivial
  | (.delete id, _) => inferInstanceAs (Decidable (∀ client ∈ service.database.clients.rows,
      client.id = id → client.bundleId.isSome → ∀ other ∈ service.database.clients.rows,
        other.id ≠ id → other.bundleId ≠ client.bundleId))

theorem spares_of_undivided {service : Service} {call : ClientRequest × List Bool}
    (undivided : Undivided service call) : Spares service call := by
  obtain ⟨request, faults⟩ := call
  intro next served client member apart bundle present linked
  obtain ⟨⟨outcome, after, events⟩, executed, rfl⟩ := Option.map_eq_some_iff.mp served
  cases request with
  | create now body =>
      exact Process.execute_everyWay (handled (createClient_everyWay now body service)) executed
        bundle present
  | update id body =>
      have leaves := Process.execute_everyWay (handled (updateClient_everyWay id body service))
        executed
      refine (leaves.survives present).resolve_right fun abandoned => ?_
      exact abandoned.alone client member (fun same => apart (congrArg some same.symm)) linked
  | delete id =>
      have left := Process.execute_everyWay (Fallible.meets_run.mpr
        (deleteClient_everyWay id service)) executed
      refine left bundle present fun ⟨owner, found, link⟩ => ?_
      obtain ⟨among, here⟩ := Table.find_eq_some.mp found
      exact undivided owner among here (by rw [link]; rfl) client member
        (fun same => apart (congrArg some same.symm)) (linked.trans link.symm)

/-! ## The deletion of a client -/

theorem deleteBundle_find (bundleId : Uuid) (database : Bundles.Database) :
    (Bundles.Sql.deleteBundle bundleId database).bundles.find bundleId = none := by
  refine Table.find_eq_none.mpr fun row member same => ?_
  have spared := (Table.mem_delete.mp member).2
  rw [decide_eq_false_iff_not] at spared
  exact spared same

section Deletion

variable {id bundleId : Uuid} {client : CatalogClient} {stores : Service}

def deletedBoth (id bundleId : Uuid) (database : Database) : Database :=
  Sql.withRegistry (Bundles.Sql.deleteBundle bundleId database.registry)
    (Sql.deleteClient id database)

theorem deleteRows_alone (found : stores.database.clients.find id = some client)
    (linked : client.bundleId = some bundleId) :
    (deleteRows id).Meets (.alone catalog)
      (fun done following => following = stores ∧
        sql.replay stores.database done.2 = .ok (deletedBoth id bundleId stores.database))
      (fun _ _ => False) stores := by
  have selected : Statement.execute stores.database (.clientBundle id) =
      .ok (some (some bundleId), stores.database) := by
    simp only [Statement.execute, found, Option.map_some, linked]
  have begun : sql.replay stores.database ([] ++ [.deleteClient id]) =
      .ok (Sql.deleteClient id stores.database) := rfl
  unfold deleteRows
  rw [Fallible.meets_bind, alone_inside rfl]
  simp only [selected, Fallible.meets_bind, Fallible.meets_okOr, reduceCtorEq, false_implies,
    true_and, Option.some.injEq, forall_eq']
  rw [alone_insideAll rfl rfl, bundleSlugById, alone_inside begun]
  simp only [Statement.execute]
  refine (alone_insideAll begun rfl).mpr ?_
  exact ⟨rfl, replay_concat begun rfl⟩

/-- By itself, the deletion of a client always takes the client's bundle with it. -/
theorem deleteClient_alone (found : stores.database.clients.find id = some client)
    (linked : client.bundleId = some bundleId) :
    (deleteClient id).Meets (.alone catalog)
      (fun _ following => following.database.registry.bundles.find bundleId = none)
      (fun _ _ => False) stores := by
  unfold deleteClient
  rw [Fallible.meets_bind, alone_begin, Fallible.meets_bind]
  refine (deleteRows_alone found linked).mono ?_ fun _ _ impossible => impossible
  rintro ⟨slug, log⟩ following ⟨rfl, replayed⟩
  rw [Fallible.meets_bind, alone_commit replayed, Fallible.meets_bind]
  have gone : (deletedBoth id bundleId following.database).registry.bundles.find bundleId = none :=
    deleteBundle_find bundleId following.database.registry
  cases slug with
  | none => exact gone
  | some slug =>
      refine (Process.Meets.alone_of_everyWay (fun _ _ => rfl) (removeBundleDir_within slug)).mono ?_
      rintro (error | done) last within
      · exact within
      · show last.database.registry.bundles.find bundleId = none
        rw [Within.database within]
        exact gone

end Deletion

/-! ## Runs -/

theorem undivided_of_spares {service : Service} {request : ClientRequest}
    (spares : Spares service (request, [])) : Undivided service (request, []) := by
  cases request with
  | create => trivial
  | update => trivial
  | delete id =>
      intro client member here linked other among apart same
      obtain ⟨bundleId, link⟩ := Option.isSome_iff_exists.mp linked
      obtain ⟨bundle, found⟩ := Option.isSome_iff_exists.mp
        (service.database.linked client member bundleId link)
      obtain ⟨present, owner⟩ := Table.find_eq_some.mp found
      obtain ⟨events, executed⟩ := Process.exists_execute (fun _ _ => rfl)
        (handleClient (.delete id)) 0 service []
      have served : serve service (.delete id, []) =
          some ((handleClient (.delete id)).evaluate service).2 := by
        rw [serve, executed]
        rfl
      have owned : bundle.id = bundleId := owner
      have kept := (spares _ served other among (fun target => apart (Option.some.inj target).symm)
        bundle present ((same.trans link).trans (congrArg some owned.symm))).rows.row
      rw [owned, found] at kept
      have deleted := Process.meets_alone.mp
        (deleteClient_alone (Table.find_eq_some.mpr ⟨member, here⟩) link)
      split at deleted
      · have gone : ((handleClient (.delete id)).evaluate service).2.database.registry.bundles.find
            bundleId = none := deleted
        rw [gone] at kept
        cases kept
      · exact deleted

theorem undivided_along {start : Service} {calls : List (ClientRequest × List Bool)}
    (faultless : ∀ call ∈ calls, call.2 = []) (along : Along serve Spares start calls) :
    Along serve Undivided start calls := by
  refine (along.and (.of_forall faultless)).mono ?_
  rintro service ⟨request, faults⟩ ⟨spares, rfl⟩
  exact undivided_of_spares spares

/-- Runs spare the bundles that other clients link to if, and without faults only if, no
other client links to the bundle of a client that they delete. -/
theorem shared_bundles_survive (start : Service) (calls : List (ClientRequest × List Bool)) :
    (Along serve Undivided start calls → Along serve Spares start calls) ∧
      ((∀ call ∈ calls, call.2 = []) → Along serve Spares start calls →
        Along serve Undivided start calls) :=
  ⟨Along.mono fun _ _ => spares_of_undivided, undivided_along⟩

def shownClient (slug : String) (bundleSlug : Option (Option String)) : UpsertClient where
  fields := ⟨slug, true, none, none, none, none, none⟩
  bundleSlug := bundleSlug
  publish := none
  locales := []
  replaceLocales := false
  deleteOrphanedBundle := false

def emptyService : Service where
  database := .empty
  devices := ⟨.empty, .empty⟩

/-- The second client asks for the bundle of the first, which is then deleted. -/
def sharedAndDeleted : List (ClientRequest × List Bool) :=
  [(.create 0 (shownClient "keeper" none), []),
   (.create 0 (shownClient "mover" (some (some "keeper"))), []),
   (.delete 2, [])]

theorem shared_bundle_lost : ¬Along serve Spares emptyService sharedAndDeleted := by
  intro along
  have divided : ¬Along serve Undivided emptyService sharedAndDeleted := by decide +kernel
  exact divided (undivided_along (by decide) along)

/-- A client that shares its bundle moves to another, and is then deleted. -/
def movedAndDeleted : List (ClientRequest × List Bool) :=
  [(.create 0 (shownClient "keeper" none), []),
   (.create 0 (shownClient "mover" (some (some "keeper"))), []),
   (.update 2 (shownClient "mover" (some (some "mover-own"))), []),
   (.delete 2, [])]

theorem shared_bundles_survive_moved : Along serve Spares emptyService movedAndDeleted :=
  (shared_bundles_survive emptyService movedAndDeleted).1 (by decide +kernel)

/-! ## An update keeps what was uploaded

Whatever of a client an update changes, bundles that hold files stay, unless the body asks
for the one that the client leaves behind to go. -/

/-- The bundle holds at least one artifact. -/
def Uploaded (bundle : Bundle) (database : Database) : Prop :=
  ∃ artifact ∈ database.registry.artifacts.rows, artifact.bundleId = bundle.id

theorem Uploaded.some {bundle : Bundle} {database : Database} (uploaded : Uploaded bundle database) :
    Bundles.Sql.ofBundle bundle.id database.registry ≠ [] := by
  obtain ⟨artifact, member, owned⟩ := uploaded
  refine List.ne_nil_of_mem (List.mem_filter.mpr ⟨member, ?_⟩)
  exact decide_eq_true owned

/-- Bundles with files survive an update that does not opt in; an update that does not
mention the link keeps it; and an update that opts in takes only the bundle that its client
was the last to link to. -/
theorem update_keeps_uploads {id : Uuid} {body : UpsertClient} {before after : Service}
    {faults : List Bool} (served : serve before (.update id body, faults) = some after) :
    (body.deleteOrphanedBundle = false → ∀ bundle ∈ before.database.registry.bundles.rows,
      Uploaded bundle before.database → Survives bundle before after) ∧
    (body.bundleSlug = none → ∀ client ∈ before.database.clients.rows, client.id = id →
      client.bundleId.isSome → ∃ now ∈ after.database.clients.rows,
        now.id = id ∧ now.bundleId = client.bundleId) ∧
    ∀ bundle ∈ before.database.registry.bundles.rows, Uploaded bundle before.database →
      Survives bundle before after ∨ (body.deleteOrphanedBundle = true ∧
        LinkedFrom id bundle before.database ∧
        (∀ other ∈ before.database.clients.rows, other.id ≠ id → other.bundleId ≠ some bundle.id) ∧
        ∀ client ∈ after.database.clients.rows, client.bundleId ≠ some bundle.id) := by
  obtain ⟨⟨outcome, last, events⟩, executed, rfl⟩ := Option.map_eq_some_iff.mp served
  have leaves := Process.execute_everyWay (handled (updateClient_everyWay id body before)) executed
  have lost : ∀ bundle ∈ before.database.registry.bundles.rows, Uploaded bundle before.database →
      Survives bundle before last ∨ (body.deleteOrphanedBundle = true ∧
        LinkedFrom id bundle before.database ∧
        (∀ other ∈ before.database.clients.rows, other.id ≠ id → other.bundleId ≠ some bundle.id) ∧
        ∀ client ∈ last.database.clients.rows, client.bundleId ≠ some bundle.id) := by
    intro bundle member uploaded
    refine (leaves.survives member).imp_right fun abandoned => ?_
    refine ⟨abandoned.allowed.resolve_right uploaded.some, abandoned.linked, abandoned.alone, ?_⟩
    exact abandoned.unlinked
  refine ⟨fun keeps bundle member uploaded => ?_, fun absent client member here linked => ?_, lost⟩
  · refine (lost bundle member uploaded).resolve_right fun ⟨asked, _⟩ => ?_
    rw [keeps] at asked
    cases asked
  · obtain ⟨old, link⟩ := Option.isSome_iff_exists.mp linked
    obtain ⟨now, found, kept⟩ := leaves.link absent (Table.find_eq_some.mpr ⟨member, here⟩) link
    obtain ⟨present, same⟩ := Table.find_eq_some.mp found
    exact ⟨now, present, same, kept.trans link.symm⟩

def uploadedService : Option Service := do
  let created ← serve emptyService (.create 0 (shownClient "keeper" none), [])
  match Statement.execute created.database
      (.ofRegistry (.upsertArtifact 1 ⟨"mods/a.jar", "a.jar", "mods", 1, none, false, none⟩)) with
  | .ok (_, database) => some { created with database }
  | .error _ => none

/-- The client moves to another bundle, and the files of the first stay. -/
theorem update_keeps_uploads_moved : ∃ before after,
    serve before (.update 1 (shownClient "keeper" (some (some "other"))), []) = some after ∧
      ∃ bundle ∈ before.database.registry.bundles.rows,
        Uploaded bundle before.database ∧ Survives bundle before after := by
  have uploaded : uploadedService.any (fun before =>
      (serve before (.update 1 (shownClient "keeper" (some (some "other"))), [])).isSome &&
      before.database.registry.bundles.rows.any fun bundle =>
        before.database.registry.artifacts.rows.any fun artifact =>
          artifact.bundleId = bundle.id) = true := by decide +kernel
  obtain ⟨before, -, checked⟩ := (Option.any_eq_true _ _).mp uploaded
  obtain ⟨answered, held⟩ := (Bool.and_eq_true _ _).mp checked
  obtain ⟨after, served⟩ := Option.isSome_iff_exists.mp answered
  obtain ⟨bundle, member, some⟩ := List.any_eq_true.mp held
  obtain ⟨artifact, among, owned⟩ := List.any_eq_true.mp some
  have holds : Uploaded bundle before.database := ⟨artifact, among, of_decide_eq_true owned⟩
  exact ⟨before, after, served, bundle, member, holds,
    (update_keeps_uploads served).1 rfl bundle member holds⟩

end Loontail.Catalog
