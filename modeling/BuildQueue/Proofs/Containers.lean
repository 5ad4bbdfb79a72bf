import BuildQueue.Table
import Mathlib.Data.List.Nodup
import Mathlib.Data.List.Perm.Subperm

/-!
# What the containers hold

A table is determined by what is found in it, and its values are what is found under some key. A
set is as large as another one that includes it only if the two are equal.
-/

namespace BuildQueue

variable {α κ ν : Type}

theorem Ascending.nodup [Ord α] [Std.LawfulEqOrd α] {xs : List α} (h : Ascending xs) :
    xs.Nodup := by
  refine List.Pairwise.imp (fun {a b} hab heq ↦ ?_) h
  subst heq
  simp [Std.ReflCmp.compare_self] at hab

namespace OrderedSet

variable [Ord α] [Std.LawfulEqOrd α]

theorem size_le_length {s : OrderedSet α} {xs : List α} (h : ∀ a, a ∈ s → a ∈ xs) :
    s.size ≤ xs.length :=
  (s.ascending.nodup.subperm fun a ha ↦ h a ha).length_le

/-- A set that is no smaller than one it is included in is that set. -/
theorem eq_of_size_eq [Std.TransOrd α] {s t : OrderedSet α} (h : ∀ a, a ∈ s → a ∈ t)
    (hsize : t.size = s.size) : t = s := by
  have hsub : List.Subperm s.toList t.toList := s.ascending.nodup.subperm fun a ha ↦ h a ha
  have hperm : s.toList.Perm t.toList := hsub.perm_of_length_le (Nat.le_of_eq hsize)
  apply ext_mem
  intro a
  rw [← mem_toList, ← mem_toList]
  exact hperm.mem_iff.symm

end OrderedSet

namespace Table

variable [Ord κ] [Std.LawfulEqOrd κ]

theorem nodup_keys (t : Table κ ν) : t.keys.Nodup := t.ascending.nodup

theorem mem_values {t : Table κ ν} {v : ν} : v ∈ t.values ↔ ∃ k, t.find? k = some v := by
  unfold values
  rw [List.mem_map]
  constructor
  · rintro ⟨⟨k, v⟩, hmem, rfl⟩
    exact ⟨k, (t.find?_eq_some_iff k v).2 hmem⟩
  · rintro ⟨k, hfind⟩
    exact ⟨(k, v), (t.find?_eq_some_iff k v).1 hfind, rfl⟩

theorem find?_erase [DecidableEq κ] (t : Table κ ν) (k k' : κ) :
    (t.erase k).find? k' = if k' = k then none else t.find? k' := by
  split
  next h => subst h; simp
  next h => exact find?_erase_of_ne t h

variable [Std.TransOrd κ]

/-- Ascending entries are those of a table if they say the same of every key. -/
theorem toList_eq_of_mem_iff {t : Table κ ν} {es : List (κ × ν)} (h : Ascending (Entries.keys es))
    (hmem : ∀ k v, (k, v) ∈ es ↔ t.find? k = some v) : t.toList = es := by
  have hperm : t.toList.Perm es := by
    rw [List.perm_ext_iff_of_nodup t.ascending.nodup.of_map h.nodup.of_map]
    rintro ⟨k, v⟩
    rw [hmem, ← t.find?_eq_some_iff]
  refine hperm.eq_of_pairwise (fun a b _ _ hab hba ↦ ?_) (List.pairwise_map.1 t.ascending)
    (List.pairwise_map.1 h)
  exact absurd hba (Std.OrientedCmp.not_lt_of_lt hab)

end Table

end BuildQueue
