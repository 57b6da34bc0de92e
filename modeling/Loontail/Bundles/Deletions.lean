import Loontail.Bundles.TidyOperations

/-! # The rows that deletions leave

A deletion resolves its entries, drops their rows in one transaction and unlinks their
files after it. What follows the transaction leaves the rows alone. -/

namespace Loontail.Bundles

open Concurrency Relational

section Parts

variable {bundleId : Uuid} {state : State} {service : Service} {bundle : Bundle}

abbrev SparesRows {Reply : Type} (part : Handler Reply) (service : Service) : Prop :=
  part.Meets (.alone registry)
    (fun _ following => following.database.artifacts = service.database.artifacts)
    (fun _ following => following.database.artifacts = service.database.artifacts) service

theorem Operation.Idle.spares {slug : String} {operation : Operation}
    (idle : operation.Idle slug) (artifacts : Table artifactLayout) :
    (Concurrency.Logic.alone registry).Keeps
      (fun following => following.database.artifacts = artifacts) operation := by
  rintro service rfl post holds
  apply holds
  cases operation with
  | statement statement =>
      simp only [Service.perform]
      split
      · rename_i executed
        exact (Statement.Idle.persists idle executed).2
      · rfl
  | begin => rfl
  | inside => rfl
  | commit => exact idle.elim
  | newUpload => rfl
  | disk => rfl

theorem regenerateManifest_spares (state : State) (bundle : Bundle) (service : Service) :
    SparesRows (regenerateManifest state bundle) service :=
  Fallible.Meets.keeping (@regenerateManifest_idles bundle.slug state bundle)
    (fun _ idle => idle.spares service.database.artifacts) rfl (fun _ _ _ kept => kept)
    fun _ _ _ kept => kept

theorem unlinkEntry_alone (filesRoot : List String) (entry : BundleArtifact)
    (service : Service) :
    (unlinkEntry filesRoot entry).Meets (.alone registry)
      (fun _ following => following.database = service.database) (fun _ _ => False) service := by
  unfold unlinkEntry
  rw [Fallible.meets_bind, alone_pathExists]
  split
  · exact rfl
  · exact rfl

theorem unlinkEntries_alone (filesRoot : List String) (entries : List BundleArtifact)
    (service : Service) :
    (unlinkEntries filesRoot entries).Meets (.alone registry)
      (fun _ following => following.database = service.database) (fun _ _ => False) service := by
  induction entries generalizing service with
  | nil => exact rfl
  | cons entry rest induction =>
      unfold unlinkEntries
      rw [Fallible.meets_bind]
      refine (unlinkEntry_alone filesRoot entry service).mono ?_ fun _ _ => False.elim
      intro _ following same
      rw [← same]
      exact induction following

/-! ## The transaction -/

/-- The rows that remain are those that no entry takes with it. -/
def Cleared (bundleId : Uuid) (entries : List BundleArtifact) (before after : Service) : Prop :=
  ∀ row, row ∈ after.database.artifacts.rows ↔
    row ∈ before.database.artifacts.rows ∧ ∀ entry ∈ entries, ¬Dropped bundleId entry row

theorem dropRows_cleared (bundleId : Uuid) (entries : List BundleArtifact) (service : Service) :
    (dropRows bundleId entries).Meets (.alone registry)
      (fun _ => Cleared bundleId entries service) (fun _ _ => False) service := by
  obtain ⟨after, replayed, -, remaining⟩ :=
    replay_deletions bundleId entries service.database
  unfold dropRows
  simp only [Fallible.meets_bind]
  apply alone_begin.mpr
  refine (@insideAll_granted service [] service.database _ after rfl replayed).mono ?_
    fun _ _ => False.elim
  rintro log following ⟨rfl, rfl⟩
  rw [List.nil_append, alone_commit, replayed]
  exact remaining

/-! ## The handlers -/

structure Names (slug : String) (bundle : Bundle) (service : Service) : Prop where
  valid : validateSlug slug = .ok ()
  found : Sql.findBySlug slug service.database = some bundle

theorem resolvedBundle_named {slug : String} (names : Names slug bundle service)
    {onOk : Bundle → Service → Prop} {onError : AppError → Service → Prop}
    (resolved : onOk bundle service) :
    (resolvedBundle slug).Meets (.alone registry) onOk onError service := by
  unfold resolvedBundle requireBySlug
  simp only [Fallible.meets_bind, names.valid, Fallible.meets_lift, Fallible.meets_okOr]
  refine ⟨fun _ invalid => ?_, fun _ _ => ?_⟩
  · cases invalid
  refine @query_done service _ (.findBySlug slug) _ _ _ rfl ?_
  rw [names.found]
  refine ⟨fun missing => ?_, fun value same => ?_⟩
  · cases missing
  cases same
  exact resolved

theorem resolveDeletions_own {ids : List Uuid}
    (own : ∀ id ∈ ids, ∀ entry, service.database.artifacts.find id = some entry →
      entry.bundleId = bundleId) :
    (resolveDeletions bundleId ids).Meets (.alone registry)
      (fun entries following => following = service ∧
        entries = ids.filterMap service.database.artifacts.find)
      (fun _ _ => False) service := by
  induction ids with
  | nil => exact ⟨rfl, rfl⟩
  | cons id rest induction =>
      rw [List.forall_mem_cons] at own
      have later := induction own.2
      unfold resolveDeletions
      rw [Fallible.meets_bind]
      refine @query_done service _ (.findArtifact id) _ _ _ rfl ?_
      cases found : service.database.artifacts.find id with
      | none =>
          rw [List.filterMap_cons_none found]
          exact later
      | some entry =>
          rw [List.filterMap_cons_some found]
          simp only [Fallible.meets_bind, Fallible.meets_refuse, Fallible.meets_pure]
          refine ⟨fun foreign => (of_decide_eq_true foreign (own.1 entry found)).elim, fun _ => ?_⟩
          refine later.mono ?_ fun _ _ impossible => impossible
          rintro entries following ⟨rfl, rfl⟩
          exact ⟨rfl, rfl⟩

theorem bulkDelete_alone {slug : String} {ids : List Uuid} (names : Names slug bundle service)
    (filled : ids ≠ [])
    (own : ∀ id ∈ ids, ∀ entry, service.database.artifacts.find id = some entry →
      entry.bundleId = bundle.id) :
    (bulkDelete state slug ids).Meets (.alone registry)
      (fun count following =>
        Cleared bundle.id (ids.filterMap service.database.artifacts.find) service following ∧
          count = (ids.filterMap service.database.artifacts.find).length)
      (fun _ => Cleared bundle.id (ids.filterMap service.database.artifacts.find) service)
      service := by
  rw [bulkDelete_eq, Fallible.meets_bind]
  apply resolvedBundle_named names
  simp only [Fallible.meets_bind, Fallible.meets_refuse, Fallible.meets_pure]
  refine ⟨fun empty => (filled (List.isEmpty_iff.mp empty)).elim, fun _ => ?_⟩
  refine (resolveDeletions_own own).mono ?_ fun _ _ => False.elim
  rintro entries following ⟨rfl, rfl⟩
  refine (dropRows_cleared bundle.id _ following).mono ?_ fun _ _ => False.elim
  intro _ dropped cleared
  refine (unlinkEntries_alone _ _ dropped).mono ?_ fun _ _ => False.elim
  intro _ unlinked same
  refine (regenerateManifest_spares state bundle unlinked).mono ?_ ?_
  · intro _ after kept
    rw [Cleared, kept, same]
    exact ⟨cleared, rfl⟩
  · intro _ after kept
    rw [Cleared, kept, same]
    exact cleared

theorem artifactInBundle_found {entryId : Uuid} {entry : BundleArtifact}
    (found : service.database.artifacts.find entryId = some entry)
    (own : entry.bundleId = bundleId) {onOk : BundleArtifact → Service → Prop}
    {onError : AppError → Service → Prop} (next : onOk entry service) :
    (artifactInBundle bundleId entryId).Meets (.alone registry) onOk onError service := by
  unfold artifactInBundle
  simp only [Fallible.meets_bind, Fallible.meets_okOr]
  refine @query_done service _ (.findArtifact entryId) _ _ _ rfl ?_
  rw [found, Option.filter_some, if_pos (decide_eq_true own)]
  refine ⟨fun missing => ?_, fun value same => ?_⟩
  · cases missing
  cases same
  exact next

theorem deleteFile_alone {slug : String} {entryId : Uuid} {entry : BundleArtifact}
    (names : Names slug bundle service)
    (found : service.database.artifacts.find entryId = some entry)
    (own : entry.bundleId = bundle.id) :
    (deleteFile state slug (some entryId)).Meets (.alone registry)
      (fun _ => Cleared bundle.id [entry] service) (fun _ => Cleared bundle.id [entry] service)
      service := by
  rw [deleteFile_eq, Fallible.meets_bind]
  unfold resolvedEntry
  simp only [Fallible.meets_bind, Fallible.meets_okOr, Fallible.meets_pure]
  apply resolvedBundle_named names
  refine ⟨fun missing => ?_, fun id same => ?_⟩
  · cases missing
  cases same
  apply artifactInBundle_found found own
  refine (dropRows_cleared bundle.id [entry] service).mono ?_ fun _ _ => False.elim
  intro _ dropped cleared
  refine (unlinkEntry_alone _ entry dropped).mono ?_ fun _ _ => False.elim
  intro _ unlinked same
  refine (regenerateManifest_spares state bundle unlinked).mono ?_ ?_
  · intro _ after kept
    rw [Cleared, kept, same]
    exact cleared
  · intro _ after kept
    rw [Cleared, kept, same]
    exact cleared

end Parts

end Loontail.Bundles
