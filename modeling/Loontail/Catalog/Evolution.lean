import Loontail.Catalog.Admin

/-! # What the statements of a client's upsert leave

They write the rows of one client, and add bundles; the other clients, and the bundles that
were there, stay as they are. -/

namespace Loontail.Catalog

open Concurrency Relational

/-! ## Bundles that stay -/

structure BundleKept (bundleId : Uuid) (before after : Database) : Prop where
  row : after.registry.bundles.find bundleId = before.registry.bundles.find bundleId
  artifacts : Bundles.Sql.ofBundle bundleId after.registry =
    Bundles.Sql.ofBundle bundleId before.registry

theorem BundleKept.of_registry {bundleId : Uuid} {before after : Database}
    (same : after.registry = before.registry) : BundleKept bundleId before after :=
  ⟨by rw [same], by rw [same]⟩

theorem BundleKept.trans {bundleId : Uuid} {first second third : Database}
    (earlier : BundleKept bundleId first second) (later : BundleKept bundleId second third) :
    BundleKept bundleId first third :=
  ⟨later.row.trans earlier.row, later.artifacts.trans earlier.artifacts⟩

/-! ## The upsert of one client -/

/-- Of the clients at most this one changed, and every bundle stayed. -/
structure Revised (id : Uuid) (before after : Database) : Prop where
  present : (before.clients.find id).isSome → (after.clients.find id).isSome
  others : ∀ other, other ≠ id → after.clients.find other = before.clients.find other
  bundles : ∀ bundleId, (before.registry.bundles.find bundleId).isSome →
    BundleKept bundleId before after

namespace Revised

variable {id : Uuid} {first second third : Database}

theorem refl (id : Uuid) (database : Database) : Revised id database database :=
  ⟨fun there => there, fun _ _ => rfl, fun _ _ => .of_registry rfl⟩

theorem trans (earlier : Revised id first second) (later : Revised id second third) :
    Revised id first third where
  present := fun there => later.present (earlier.present there)
  others := fun other apart => (later.others other apart).trans (earlier.others other apart)
  bundles := fun bundleId there => by
    have kept := earlier.bundles bundleId there
    exact kept.trans (later.bundles bundleId (kept.row ▸ there))

theorem of_clients {before after : Database} (clients : after.clients = before.clients)
    (bundles : ∀ bundleId, (before.registry.bundles.find bundleId).isSome →
      BundleKept bundleId before after) : Revised id before after :=
  ⟨fun there => clients ▸ there, fun _ _ => by rw [clients], bundles⟩

theorem of_revise {before after : Database} {set : CatalogClient → CatalogClient}
    (registry : after.registry = before.registry)
    (revised : ∀ other, after.clients.find other = (before.clients.find other).map
      (Table.revise (fun client => client.id = id) set)) : Revised id before after where
  present := fun there => by
    rw [revised, Option.isSome_map]
    exact there
  others := fun other apart => by
    rw [revised]
    exact Table.map_revise_other (fun row => of_decide_eq_true) apart
  bundles := fun _ _ => .of_registry registry

end Revised

theorem withRegistry_clients {registry : Bundles.Database} {database : Database}
    (more : ∀ bundleId, (database.registry.bundles.find bundleId).isSome →
      (registry.bundles.find bundleId).isSome) :
    (Sql.withRegistry registry database).clients = database.clients := by
  have unselected : ∀ client ∈ database.clients.rows, (client.bundleId.any fun bundleId =>
      (registry.bundles.find bundleId).isNone) = false := by
    intro client member
    cases link : client.bundleId with
    | none => rfl
    | some bundleId =>
        have there := more bundleId (database.linked client member bundleId link)
        simpa using there
  simp only [Sql.withRegistry]
  rw [Table.update_eq_self unselected]

theorem insertBundle_kept {registry after : Bundles.Database} {name slug : String} {id : Uuid}
    (inserted : Bundles.Sql.insertBundle name slug registry = .ok (id, after)) :
    after.artifacts = registry.artifacts ∧ ∀ bundleId, (registry.bundles.find bundleId).isSome →
      after.bundles.find bundleId = registry.bundles.find bundleId := by
  unfold Bundles.Sql.insertBundle at inserted
  simp only at inserted
  split at inserted
  · rename_i bundles granted
    cases inserted
    refine ⟨rfl, fun bundleId there => ?_⟩
    rw [Table.find_insert granted, if_neg]
    rintro rfl
    obtain ⟨bundle, found⟩ := Option.isSome_iff_exists.mp there
    obtain ⟨member, same⟩ := Table.find_eq_some.mp found
    exact registry.ids.fresh _ (same ▸ registry.bundles.keysIssued bundle member)
  · cases inserted

theorem insertClient_revised {now : Timestamp} {fields : ClientFields} {publish : Bool}
    {before after : Database} {id : Uuid}
    (inserted : Sql.insertClient now fields publish before = .ok (id, after)) :
    Revised id before after := by
  unfold Sql.insertClient at inserted
  simp only at inserted
  split at inserted
  · rename_i clients granted
    cases inserted
    refine ⟨fun _ => ?_, fun other apart => ?_, fun _ _ => .of_registry rfl⟩
    · simp [Table.find_insert granted]
    · rw [Table.find_insert granted, if_neg]
      exact fun same => apart same.symm
  · cases inserted

theorem linkBundle_find {id bundleId : Uuid} {slug : String} {before after : Database} {reply : Unit}
    (linked : Sql.linkBundle id bundleId slug before = .ok (reply, after)) :
    after.registry = before.registry ∧ ∀ other, after.clients.find other =
      (before.clients.find other).map (Table.revise (fun client => client.id = id) fun client =>
        { client with bundleId := some bundleId, bundleSlug := some slug }) := by
  unfold Sql.linkBundle at linked
  split at linked
  · cases linked
    refine ⟨rfl, fun other => ?_⟩
    rw [Table.find_update]
  · cases linked

def Statement.Revises (id : Uuid) : Statement → Prop
  | .updateClient other _ => other = id
  | .linkBundle other _ _ => other = id
  | .upsertLocale .. => True
  | .deleteLocalesBut .. => True
  | .ofRegistry (.insertBundle ..) => True
  | _ => False

theorem execute_revises {id : Uuid} {statement : Statement} {before after : Database}
    {reply : statement.Reply} (revises : statement.Revises id)
    (executed : statement.execute before = .ok (reply, after)) : Revised id before after := by
  cases statement with
  | updateClient other fields =>
      obtain rfl : other = id := revises
      simp only [Statement.execute, Sql.updateClient] at executed
      split at executed
      · rename_i clients claimed
        cases executed
        exact .of_revise rfl fun other => Table.find_claim claimed other
      · cases executed
  | linkBundle other bundleId slug =>
      obtain rfl : other = id := revises
      obtain ⟨registry, revised⟩ := linkBundle_find executed
      exact .of_revise registry revised
  | upsertLocale clientId input =>
      simp only [Statement.execute, Sql.upsertLocale] at executed
      split at executed
      · split at executed
        · split at executed
          · cases executed
            exact .of_clients rfl fun _ _ => .of_registry rfl
          · cases executed
        · cases executed
      · cases executed
        exact .of_clients rfl fun _ _ => .of_registry rfl
  | deleteLocalesBut clientId locales =>
      cases executed
      exact .of_clients rfl fun _ _ => .of_registry rfl
  | ofRegistry statement =>
      cases statement with
      | insertBundle name slug =>
          simp only [Statement.execute, Bundles.Statement.execute] at executed
          split at executed
          · rename_i bundleId registry inserted
            cases executed
            obtain ⟨artifacts, kept⟩ := insertBundle_kept inserted
            refine .of_clients ?_ fun bundleId there => ⟨kept bundleId there, ?_⟩
            · exact withRegistry_clients fun bundleId there => (kept bundleId there).symm ▸ there
            · simp only [Sql.withRegistry, Bundles.Sql.ofBundle, artifacts]
          · cases executed
      | _ => exact revises.elim
  | _ => exact revises.elim

theorem replay_revises {id : Uuid} {log : List Statement} {database seen : Database}
    (all : ∀ statement ∈ log, statement.Revises id)
    (replayed : sql.replay database log = .ok seen) : Revised id database seen :=
  Dialect.replay_keeps (fun _ _ _ _ revises earlier executed =>
    earlier.trans (execute_revises revises executed)) all (.refl id database) replayed

end Loontail.Catalog
