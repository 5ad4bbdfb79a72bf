import BuildQueue.Store.Basic

/-!
# The namespace hierarchy

Parents are kept with the child. The namespaces below a root are found by sweeping over all links
until a sweep adds nothing; the order of the links within a sweep does not matter.
-/

namespace BuildQueue

/-- A namespace and its parent. -/
abbrev NamespaceLink := NamespaceId × Option NamespaceId

/-- Adds each child whose parent is there already, link by link. -/
def sweep (links : List NamespaceLink) (tree : OrderedSet NamespaceId) : OrderedSet NamespaceId :=
  links.foldl (fun tree link ↦ if link.2.any (· ∈ tree) then tree.insert link.1 else tree) tree

/-- Sweeps until nothing is added, at most so many times; sweep `i` meets the links in the order
`links i`. -/
def sweepAll (links : Nat → List NamespaceLink) : Nat → Nat → OrderedSet NamespaceId →
    OrderedSet NamespaceId
  | 0, _, tree => tree
  | fuel + 1, i, tree =>
    let next := sweep (links i) tree
    if next.size = tree.size then next else sweepAll links fuel (i + 1) next

namespace Store

/-- The registered namespaces at and below a registered root. -/
def descendants (s : Store) (root : NamespaceId) : OrderedSet NamespaceId :=
  if s.namespaces.contains root then
    sweepAll (fun _ ↦ s.namespaces.toList) (s.namespaces.size + 1) 0 (OrderedSet.empty.insert root)
  else .empty

/-- The projects of those namespaces, by id. -/
def descendantProjectIds (s : Store) (root : NamespaceId) : List ProjectId :=
  let tree := s.descendants root
  (s.projects.values.filter fun p ↦ p.namespaceId ∈ tree).map (·.id)

/-- The records of projects in the order asked for; unknown ones are left out. -/
def projectRecords (s : Store) (ids : List ProjectId) : List ProjectRecord :=
  ids.filterMap s.projects.find?

end Store

end BuildQueue
