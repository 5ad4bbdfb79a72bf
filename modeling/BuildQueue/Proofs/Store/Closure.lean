import BuildQueue.Proofs.Store.Sound
import BuildQueue.Proofs.Store.Hierarchy

/-!
# The closure of a group

The parents of a namespace are followed one by one. A group is closed under going up to its root:
it consists of the registered namespaces from which the root is reached, whatever the links are and
in whatever order the sweeps meet them.
-/

namespace BuildQueue.Store

variable {s : Store} {root id : NamespaceId}

/-- The namespace that is reached after so many parents, if there are that many. -/
def ancestor? (s : Store) : Nat → NamespaceId → Option NamespaceId
  | 0, id => some id
  | n + 1, id => (s.namespaces.find? id).join.bind (s.ancestor? n)

theorem ancestor?_succ_of_link {parent : NamespaceId}
    (h : s.namespaces.find? id = some (some parent)) (n : Nat) :
    s.ancestor? (n + 1) id = s.ancestor? n parent := by
  rw [ancestor?, h]
  rfl

/-- A namespace with a parent has a link to it. -/
theorem find?_of_ancestor?_succ {n : Nat} (h : s.ancestor? (n + 1) id = some root) :
    ∃ parent, s.namespaces.find? id = some (some parent) ∧ s.ancestor? n parent = some root := by
  rw [ancestor?, Option.bind_eq_some_iff] at h
  obtain ⟨parent, hlink, hparent⟩ := h
  exact ⟨parent, Option.join_eq_some_iff.1 hlink, hparent⟩

theorem within_iff_ancestor? : s.Within root id ↔
    s.namespaces.contains root = true ∧ ∃ n, s.ancestor? n id = some root := by
  constructor
  · intro h
    refine ⟨h.root_registered, ?_⟩
    induction h with
    | root _ => exact ⟨0, rfl⟩
    | child hlink _ ih =>
      obtain ⟨n, hn⟩ := ih
      exact ⟨n + 1, (ancestor?_succ_of_link hlink n).trans hn⟩
  · rintro ⟨hroot, n, hn⟩
    induction n generalizing id with
    | zero =>
      obtain rfl : id = root := Option.some.inj hn
      exact .root hroot
    | succ n ih =>
      obtain ⟨parent, hlink, hparent⟩ := find?_of_ancestor?_succ hn
      exact .child hlink (ih hparent)

/-- Records stand under their own ids, so these come out strictly ascending. -/
theorem Sound.ascending_ids (h : s.Sound) : Ascending (s.projects.values.map (·.id)) := by
  have hkeys : s.projects.values.map (·.id) = s.projects.keys := by
    unfold Table.values Table.keys
    rw [List.map_map]
    apply List.map_congr_left
    rintro ⟨id, record⟩ hmem
    exact h.project_id id record ((s.projects.find?_eq_some_iff id record).2 hmem)
  rw [hkeys]
  exact s.projects.ascending

theorem Sound.descendantProjectIds_ascending (h : s.Sound) (root : NamespaceId) :
    Ascending (s.descendantProjectIds root) :=
  h.ascending_ids.sublist (List.filter_sublist.map _)

/-- Whatever projects there are and however namespaces are linked, the sweeps from a registered root
come to their end in whatever order each of them meets the links, always with the descendants of
the root. These are the registered namespaces from which the root is reached by following parents;
a root that is not registered has none. The ids of the projects in these namespaces are listed
strictly ascending. -/
theorem descendants_are_closure (ops : List StoreOperation)
    (namespaces : Table NamespaceId (Option NamespaceId)) (root : NamespaceId) :
    let s := { after ops with namespaces }
    (namespaces.contains root = false → s.descendants root = .empty) ∧
    (namespaces.contains root = true →
      (∀ order : Nat → List NamespaceLink, (∀ i, (order i).Perm namespaces.toList) →
        ∀ result, SweepsTo order 0 (OrderedSet.empty.insert root) result ↔
          result = s.descendants root) ∧
      ∀ id, id ∈ s.descendants root ↔
        namespaces.contains id = true ∧ ∃ n, s.ancestor? n id = some root) ∧
    Ascending (s.descendantProjectIds root) ∧
    ∀ project, project ∈ s.descendantProjectIds root ↔
      ∃ record, s.projects.find? project = some record ∧
        record.namespaceId ∈ s.descendants root := by
  intro s
  have hsound : s.Sound := (sound_after ops).of_eq rfl rfl rfl
  refine ⟨?_, fun hroot ↦ ⟨?_, ?_⟩, hsound.descendantProjectIds_ascending root, ?_⟩
  · intro hroot
    change (if namespaces.contains root = true then _ else _) = _
    rw [hroot]
    rfl
  · intro order hperm result
    have horder : ∀ i l, l ∈ order i ↔ l ∈ s.namespaces.toList := fun i l ↦ (hperm i).mem_iff
    have hends := sweepsTo_of_registered (s := s) hroot horder
    have hsame {tree : OrderedSet NamespaceId}
        (h : SweepsTo order 0 (OrderedSet.empty.insert root) tree) : tree = s.descendants root := by
      apply OrderedSet.ext_mem
      intro id
      rw [h.mem_iff horder, below_iff_within (s := s) hroot, mem_descendants]
    exact ⟨hsame, fun h ↦ h ▸ hsame hends ▸ hends⟩
  · intro id
    rw [mem_descendants]
    constructor
    · intro h
      exact ⟨h.registered, (within_iff_ancestor?.1 h).2⟩
    · rintro ⟨-, hreaches⟩
      exact within_iff_ancestor?.2 ⟨hroot, hreaches⟩
  · intro project
    rw [mem_descendantProjectIds hsound.project_id]
    simp only [mem_descendants]

/-- Three namespaces in a ring, one that is its own parent, one whose parent is not known, and one
that was moved into the ring. -/
def tangled : List StoreOperation :=
  [.addNamespace ⟨1⟩ (some ⟨3⟩), .addNamespace ⟨2⟩ (some ⟨1⟩), .addNamespace ⟨3⟩ (some ⟨2⟩),
    .addNamespace ⟨4⟩ (some ⟨4⟩), .addNamespace ⟨5⟩ (some ⟨9⟩), .addNamespace ⟨6⟩ none,
    .addNamespace ⟨6⟩ (some ⟨3⟩), .putProject (.opened ⟨20⟩ ⟨6⟩), .putProject (.opened ⟨30⟩ ⟨4⟩),
    .putProject (.opened ⟨10⟩ ⟨3⟩)]

theorem descendants_are_closure_tangled :
    let s := after tangled
    let backward := fun _ : Nat ↦ s.namespaces.toList.reverse
    s.namespaces.contains ⟨1⟩ = true ∧ (∀ i, (backward i).Perm s.namespaces.toList) ∧
      (s.descendants ⟨1⟩).toList = [⟨1⟩, ⟨2⟩, ⟨3⟩, ⟨6⟩] ∧
      SweepsTo backward 0 (OrderedSet.empty.insert ⟨1⟩) (s.descendants ⟨1⟩) ∧
      s.descendantProjectIds ⟨1⟩ = [⟨10⟩, ⟨20⟩] := by
  intro s backward
  have hroot : s.namespaces.contains ⟨1⟩ = true := by decide
  have hperm : ∀ i, (backward i).Perm s.namespaces.toList := fun _ ↦ List.reverse_perm _
  have hends := ((descendants_are_closure tangled s.namespaces ⟨1⟩).2.1 hroot).1 backward hperm
  exact ⟨hroot, hperm, by decide, (hends _).2 rfl, by decide⟩

end BuildQueue.Store
