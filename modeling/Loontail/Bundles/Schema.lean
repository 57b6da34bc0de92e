import Loontail.Core.Models
import Loontail.Relational.Table

/-! # The tables of the bundle registry

A bundle is a named set of files; an artifact is the row of one file or folder. Of the
columns with times only that of the file is kept: no handler reads the others. -/

namespace Loontail.Bundles

open Relational

inductive BundleStatus where
  | draft
  | processing
  | ready
  | failed
  deriving DecidableEq, Repr

structure Bundle where
  id : Uuid
  slug : String
  name : String
  description : Option String
  version : Option String
  status : BundleStatus
  filesCount : Int
  totalSize : Int
  processingError : Option String
  deriving DecidableEq, Repr

@[reducible] def bundleLayout : Layout Bundle Uuid String where
  key := Bundle.id
  slot := fun bundle => some bundle.slug

structure BundleArtifact where
  id : Uuid
  bundleId : Uuid
  relativePath : String
  name : String
  category : String
  size : Int
  sha256 : Option String
  isDir : Bool
  downloadOnce : Bool
  fileModifiedAt : Option Timestamp
  deriving DecidableEq, Repr

/-- `bundle_artifacts_bundle_path_uq`. -/
@[reducible] def artifactLayout : Layout BundleArtifact Uuid (Uuid × String) where
  key := BundleArtifact.id
  slot := fun artifact => some (artifact.bundleId, artifact.relativePath)

/-- `gen_random_uuid()`: some identifier that was not issued before. -/
structure IdSource where
  next : List Uuid → Uuid
  fresh : ∀ issued, next issued ∉ issued

theorem lt_successor {issued : List Nat} {id : Nat} (member : id ∈ issued) :
    id < issued.foldr max 0 + 1 := by
  induction issued with
  | nil => cases member
  | cons first rest induction =>
      rw [List.foldr_cons]
      rcases List.mem_cons.mp member with rfl | later
      · omega
      · have bound := induction later
        omega

def IdSource.successor : IdSource where
  next := fun issued => issued.foldr max 0 + 1
  fresh := fun _ member => Nat.lt_irrefl _ (lt_successor member)

/-- The tables, the source of their keys and the order of texts in `ORDER BY`. -/
structure Database where
  bundles : Table bundleLayout
  artifacts : Table artifactLayout
  ids : IdSource
  collation : String → String → Bool

def Database.empty : Database where
  bundles := .empty
  artifacts := .empty
  ids := .successor
  collation := fun left right => left < right || left = right

end Loontail.Bundles
