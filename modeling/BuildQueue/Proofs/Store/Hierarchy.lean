import BuildQueue.Proofs.Containers
import BuildQueue.Store.Hierarchy

/-!
# What lies below a namespace

Sweeping adds only namespaces that lie below the tree, and a sweep that adds nothing leaves a tree
that is closed under children. As each earlier sweep adds at least one namespace, the sweeps end
with exactly the namespaces below the tree they began with, in whatever order each of them meets
the links.
-/

namespace BuildQueue

/-- A namespace of the tree, or a child of one that lies below the tree. -/
inductive Below (links : List NamespaceLink) (tree : OrderedSet NamespaceId) : NamespaceId → Prop
  | base {x : NamespaceId} (h : x ∈ tree) : Below links tree x
  | child {x parent : NamespaceId} (hlink : (x, some parent) ∈ links)
      (h : Below links tree parent) : Below links tree x

variable {links : List NamespaceLink} {tree : OrderedSet NamespaceId} {x : NamespaceId}

theorem Below.mono {links' : List NamespaceLink} {tree' : OrderedSet NamespaceId}
    (hlinks : ∀ l ∈ links, l ∈ links') (htree : ∀ y, y ∈ tree → Below links' tree' y)
    (h : Below links tree x) : Below links' tree' x := by
  induction h with
  | base h => exact htree _ h
  | child hlink _ ih => exact .child (hlinks _ hlink) ih

/-! ## One sweep -/

theorem mem_sweep_of_mem (h : x ∈ tree) : x ∈ sweep links tree := by
  unfold sweep
  induction links generalizing tree with
  | nil => exact h
  | cons link links ih =>
    rw [List.foldl_cons]
    apply ih
    split
    · rw [OrderedSet.mem_insert]
      exact .inr h
    · exact h

theorem below_of_mem_sweep (h : x ∈ sweep links tree) : Below links tree x := by
  unfold sweep at h
  induction links generalizing tree with
  | nil => exact .base h
  | cons link links ih =>
    rw [List.foldl_cons] at h
    apply (ih h).mono (fun l hl ↦ List.mem_cons_of_mem _ hl)
    intro y hy
    split at hy
    next hparent =>
      rw [OrderedSet.mem_insert] at hy
      rcases hy with rfl | hy
      · obtain ⟨y, _ | parent⟩ := link
        · simp at hparent
        · have hmem : parent ∈ tree := by simpa using hparent
          exact .child List.mem_cons_self (.base hmem)
      · exact .base hy
    next => exact .base hy

/-- A sweep meets the children of everything that was there when it began. -/
theorem mem_sweep_of_link {parent : NamespaceId} (hlink : (x, some parent) ∈ links)
    (h : parent ∈ tree) : x ∈ sweep links tree := by
  unfold sweep
  induction links generalizing tree with
  | nil => simp at hlink
  | cons link links ih =>
    rw [List.foldl_cons]
    rcases List.mem_cons.1 hlink with rfl | hlink
    · apply mem_sweep_of_mem
      simp [h]
    · apply ih hlink
      split
      · rw [OrderedSet.mem_insert]
        exact .inr h
      · exact h

/-- A sweep in any order leaves the same namespaces below the tree. -/
theorem below_sweep_iff {order : List NamespaceLink} (horder : ∀ l, l ∈ order ↔ l ∈ links) :
    Below links (sweep order tree) x ↔ Below links tree x := by
  constructor
  · refine Below.mono (fun l hl ↦ hl) fun y hy ↦ ?_
    exact (below_of_mem_sweep hy).mono (fun l hl ↦ (horder l).1 hl) fun z hz ↦ .base hz
  · exact Below.mono (fun l hl ↦ hl) fun y hy ↦ .base (mem_sweep_of_mem hy)

/-! ## All sweeps -/

/-- Sweeping from a tree on, first in the order of this number, comes to its end with a result. -/
inductive SweepsTo (order : Nat → List NamespaceLink) :
    Nat → OrderedSet NamespaceId → OrderedSet NamespaceId → Prop
  | last {i : Nat} {tree : OrderedSet NamespaceId} (h : (sweep (order i) tree).size = tree.size) :
    SweepsTo order i tree (sweep (order i) tree)
  | again {i : Nat} {tree result : OrderedSet NamespaceId}
    (h : (sweep (order i) tree).size ≠ tree.size)
    (rest : SweepsTo order (i + 1) (sweep (order i) tree) result) : SweepsTo order i tree result

variable {order : Nat → List NamespaceLink} {i : Nat}

/-- Where the sweeps come to their end, there is all that lies below the tree and nothing else. -/
theorem SweepsTo.mem_iff (horder : ∀ i l, l ∈ order i ↔ l ∈ links)
    {result : OrderedSet NamespaceId} (h : SweepsTo order i tree result) :
    x ∈ result ↔ Below links tree x := by
  induction h with
  | @last i tree hsize =>
    have hclosed : sweep (order i) tree = tree :=
      OrderedSet.eq_of_size_eq (fun y hy ↦ mem_sweep_of_mem hy) hsize
    rw [hclosed]
    constructor
    · exact .base
    · intro h
      induction h with
      | base h => exact h
      | child hlink _ hparent =>
        rw [← hclosed]
        exact mem_sweep_of_link ((horder i _).2 hlink) hparent
  | again hsize rest ih =>
    rw [ih]
    exact below_sweep_iff (horder _)

/-- With one sweep to spare for each namespace that could be added, the sweeps come to their end,
as each of them but the last one adds a namespace. -/
theorem sweepsTo_sweepAll {all : List NamespaceId} {fuel : Nat}
    (horder : ∀ i l, l ∈ order i ↔ l ∈ links) (hall : ∀ y, Below links tree y → y ∈ all)
    (hfuel : all.length < tree.size + fuel) :
    SweepsTo order i tree (sweepAll order fuel i tree) := by
  induction fuel generalizing tree i with
  | zero =>
    have hsize : tree.size ≤ all.length := OrderedSet.size_le_length fun y hy ↦ hall y (.base hy)
    omega
  | succ fuel ih =>
    have hle : tree.size ≤ (sweep (order i) tree).size :=
      OrderedSet.size_le_length fun y hy ↦ mem_sweep_of_mem hy
    unfold sweepAll
    simp only
    split
    next hsize => exact .last hsize
    next hsize =>
      exact .again hsize (ih (fun y hy ↦ hall y ((below_sweep_iff (horder i)).1 hy)) (by omega))

namespace Store

variable {s : Store} {root id : NamespaceId}

/-- A registered namespace at or below a registered root. -/
inductive Within (s : Store) (root : NamespaceId) : NamespaceId → Prop
  | root (h : s.namespaces.contains root = true) : Within s root root
  | child {id parent : NamespaceId} (hlink : s.namespaces.find? id = some (some parent))
      (h : Within s root parent) : Within s root id

theorem Within.registered (h : s.Within root id) : s.namespaces.contains id = true := by
  cases h with
  | root h => exact h
  | child hlink _ =>
    unfold Table.contains
    rw [hlink]
    rfl

theorem Within.root_registered (h : s.Within root id) : s.namespaces.contains root = true := by
  induction h with
  | root h => exact h
  | child _ _ ih => exact ih

theorem below_iff_within (hroot : s.namespaces.contains root = true) :
    Below s.namespaces.toList (OrderedSet.empty.insert root) id ↔ s.Within root id := by
  constructor
  · intro h
    induction h with
    | @base y h =>
      have heq : y = root := by simpa using h
      rw [heq]
      exact .root hroot
    | child hlink _ ih => exact .child ((s.namespaces.find?_eq_some_iff _ _).2 hlink) ih
  · intro h
    induction h with
    | root _ => exact .base (by simp)
    | child hlink _ ih => exact .child ((s.namespaces.find?_eq_some_iff _ _).1 hlink) ih

/-- From a registered root the sweeps come to their end, in whatever order each of them meets the
links. -/
theorem sweepsTo_of_registered (hroot : s.namespaces.contains root = true)
    (horder : ∀ i l, l ∈ order i ↔ l ∈ s.namespaces.toList) :
    SweepsTo order 0 (OrderedSet.empty.insert root)
      (sweepAll order (s.namespaces.size + 1) 0 (OrderedSet.empty.insert root)) := by
  have hall : ∀ y, Below s.namespaces.toList (OrderedSet.empty.insert root) y →
      y ∈ s.namespaces.keys := by
    intro y hy
    obtain ⟨parent, hfound⟩ :=
      Option.isSome_iff_exists.1 ((below_iff_within hroot).1 hy).registered
    exact List.mem_map.2 ⟨_, (s.namespaces.find?_eq_some_iff _ _).1 hfound, rfl⟩
  have hkeys : s.namespaces.keys.length = s.namespaces.size := List.length_map ..
  exact sweepsTo_sweepAll horder hall (by omega)

theorem mem_descendants : id ∈ s.descendants root ↔ s.Within root id := by
  unfold descendants
  split
  next hroot =>
    have horder : ∀ (i : Nat) l, l ∈ s.namespaces.toList ↔ l ∈ s.namespaces.toList :=
      fun _ _ ↦ Iff.rfl
    rw [← below_iff_within hroot]
    exact (sweepsTo_of_registered hroot horder).mem_iff horder
  next hroot =>
    constructor
    · intro h
      exact absurd h OrderedSet.not_mem_empty
    · intro h
      exact absurd h.root_registered hroot

theorem mem_descendantProjectIds (hid : ∀ id record, s.projects.find? id = some record →
    record.id = id) {project : ProjectId} :
    project ∈ s.descendantProjectIds root ↔
      ∃ record, s.projects.find? project = some record ∧ s.Within root record.namespaceId := by
  unfold descendantProjectIds
  simp only [List.mem_map, List.mem_filter, decide_eq_true_eq, mem_descendants]
  constructor
  · rintro ⟨record, ⟨hmem, hwithin⟩, rfl⟩
    obtain ⟨id, hfound⟩ := Table.mem_values.1 hmem
    rw [hid id record hfound]
    exact ⟨record, hfound, hwithin⟩
  · rintro ⟨record, hfound, hwithin⟩
    exact ⟨record, ⟨Table.mem_values.2 ⟨project, hfound⟩, hwithin⟩, hid project record hfound⟩

end Store

end BuildQueue
