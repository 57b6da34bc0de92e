import Mathlib.Data.List.Sort
import Loontail.Bundles.Rewrites
import Loontail.Core.OrderedMap

/-! # The file tree of the admin interface

A build is a flat list of artifacts. One function lists the children of a folder by filtering,
the other links all folders into a tree. -/

namespace Loontail.AdminUi

open Bundles

/-- How names are compared, up to case and accents. -/
structure Collation where
  le : String → String → Bool
  total : ∀ left right, (le left right || le right left) = true
  trans : ∀ left middle right, le left middle = true → le middle right = true →
    le left right = true

structure TreeEntry where
  relativePath : String
  name : String
  isDir : Bool
  artifact : Option BundleArtifact
  deriving DecidableEq, Repr

def joinPath (base segment : String) : String := if base = "" then segment else beneath base segment

def parentPath (relativePath : String) : String :=
  match relativePath.toList.reverse.dropWhile (· ≠ '/') with
  | [] => ""
  | _ :: before => .ofList before.reverse

def pathSegments (path : String) : List String := (segments path).filter (· ≠ "")

example : parentPath "mods/sub/a.jar" = "mods/sub" ∧ parentPath "a.jar" = "" ∧
    pathSegments "mods/sub" = ["mods", "sub"] ∧ pathSegments "" = [] := by decide +kernel

/-- Folders come first, then names decide. -/
def TreeEntry.le (collation : Collation) (left right : TreeEntry) : Bool :=
  if left.isDir ≠ right.isDir then left.isDir else collation.le left.name right.name

/-! ## The children of a folder -/

structure Children where
  explicit : OrderedMap String TreeEntry
  implied : OrderedMap String TreeEntry

def Children.empty : Children := ⟨.empty, .empty⟩

def Children.add (currentPath : String) (children : Children) (artifact : BundleArtifact) :
    Children :=
  if currentPath ≠ "" && !(currentPath ++ "/").toList.isPrefixOf artifact.relativePath.toList then
    children
  else if artifact.relativePath = currentPath then children
  else
    let depth := (pathSegments currentPath).length
    let parts := pathSegments artifact.relativePath
    match parts[depth]? with
    | none => children
    | some childName =>
        let childPath := joinPath currentPath childName
        if parts.length = depth + 1 then
          { children with
            explicit := children.explicit.set childPath
              ⟨childPath, childName, artifact.isDir, some artifact⟩ }
        else if children.implied.has childPath then children
        else
          { children with
            implied := children.implied.set childPath ⟨childPath, childName, true, none⟩ }

def Children.merged (children : Children) : OrderedMap String TreeEntry :=
  children.explicit.entries.foldl (fun merged (path, entry) => merged.set path entry)
    children.implied

def childrenOf (collation : Collation) (artifacts : List BundleArtifact) (currentPath : String) :
    List TreeEntry :=
  (artifacts.foldl (Children.add currentPath) .empty).merged.values.mergeSort
    (TreeEntry.le collation)

/-! ## The tree -/

/-- A node while the tree is built. Its children are named by their paths. -/
structure Node where
  relativePath : String
  name : String
  isDir : Bool
  artifact : Option BundleArtifact
  children : List String
  deriving DecidableEq, Repr

abbrev Nodes := OrderedMap String Node

/-- The recursion ends at a path without a slash. Every call has a shorter path. -/
def ensureWithin : Nat → Nodes → String → Bool → Nodes
  | 0, nodes, _, _ => nodes
  | fuel + 1, nodes, relativePath, isDir =>
      if nodes.has relativePath then nodes
      else
        let name := (pathSegments relativePath).getLast?.getD relativePath
        let inserted := nodes.set relativePath ⟨relativePath, name, isDir, none, []⟩
        let parent := parentPath relativePath
        if parent ≠ "" then
          (ensureWithin fuel inserted parent true).modify parent fun node =>
            { node with children := node.children ++ [relativePath] }
        else inserted

def ensure (nodes : Nodes) (relativePath : String) (isDir : Bool) : Nodes :=
  ensureWithin (relativePath.toList.length + 1) nodes relativePath isDir

def ensureParent (nodes : Nodes) (artifact : BundleArtifact) : Nodes :=
  let parent := parentPath artifact.relativePath
  if parent ≠ "" then ensure nodes parent true else nodes

/-- The row of an artifact wins over an implied folder. -/
def place (nodes : Nodes) (artifact : BundleArtifact) : Nodes :=
  (ensure nodes artifact.relativePath artifact.isDir).modify artifact.relativePath fun node =>
    { node with isDir := artifact.isDir, artifact := some artifact }

def buildNodes (artifacts : List BundleArtifact) : Nodes :=
  artifacts.foldl place (artifacts.foldl ensureParent .empty)

structure FileTreeNode where
  id : String
  relativePath : String
  name : String
  isDir : Bool
  artifact : Option BundleArtifact
  children : List FileTreeNode

def Node.le (collation : Collation) (left right : Node) : Bool :=
  if left.isDir ≠ right.isDir then left.isDir else collation.le left.name right.name

def assemble (collation : Collation) (nodes : Nodes) : Nat → Node → FileTreeNode
  | 0, node => ⟨node.relativePath, node.relativePath, node.name, node.isDir, node.artifact, []⟩
  | depth + 1, node =>
      ⟨node.relativePath, node.relativePath, node.name, node.isDir, node.artifact,
        ((node.children.filterMap nodes.get).mergeSort (Node.le collation)).map
          (assemble collation nodes depth)⟩

def depth (nodes : Nodes) : Nat :=
  (nodes.keys.map fun path => (pathSegments path).length).foldr max 0

def buildTree (collation : Collation) (artifacts : List BundleArtifact) : List FileTreeNode :=
  let nodes := buildNodes artifacts
  let roots := nodes.values.filter fun node => parentPath node.relativePath = ""
  (roots.mergeSort (Node.le collation)).map (assemble collation nodes (depth nodes))

end Loontail.AdminUi
