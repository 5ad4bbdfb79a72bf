import BuildQueue.Build
import Mathlib.Data.List.Nodup

/-!
# Queue order

A build stands before another one if it was queued earlier, or at the same instant under a lower id.
Sorting a list of builds with different ids puts each of them before all later ones.
-/

namespace BuildQueue

namespace QueuedBuild

/-- Queued earlier, or at the same instant under a lower id. -/
def Before (a b : QueuedBuild) : Prop :=
  a.queuedAt < b.queuedAt ∨ a.queuedAt = b.queuedAt ∧ a.jobId.toInt < b.jobId.toInt

instance (a b : QueuedBuild) : Decidable (a.Before b) :=
  inferInstanceAs (Decidable (_ ∨ _ ∧ _))

theorem compare_jobId_eq_lt {a b : JobId} : compare a b = .lt ↔ a.toInt < b.toInt := by
  change compare a.value b.value = .lt ↔ _
  rw [Std.compare_eq_lt, Int64.lt_iff_toInt_lt]
  rfl

/-- Keys are compared by instant and then by id. -/
theorem compare_key_eq_lt {k l : QueueKey} : compare k l = .lt ↔
    k.queuedAt < l.queuedAt ∨ k.queuedAt = l.queuedAt ∧ k.jobId.toInt < l.jobId.toInt := by
  have hinstant : compare k.queuedAt l.queuedAt = .lt ↔ k.queuedAt < l.queuedAt :=
    Std.compare_eq_lt (α := Int)
  have hsame : compare k.queuedAt l.queuedAt = .eq ↔ k.queuedAt = l.queuedAt :=
    Std.LawfulEqCmp.compare_eq_iff_eq
  rw [QueueKey.compare_def, Ordering.then_eq_lt, hinstant, hsame, compare_jobId_eq_lt]

theorem order_eq_lt_iff {a b : QueuedBuild} : a.order b = .lt ↔ a.Before b :=
  compare_key_eq_lt

theorem Before.trans {a b c : QueuedBuild} (hab : a.Before b) (hbc : b.Before c) :
    a.Before c := by
  rw [← order_eq_lt_iff] at hab hbc ⊢
  unfold order at hab hbc ⊢
  exact Std.TransCmp.lt_trans hab hbc

theorem Before.not_before {a b : QueuedBuild} (hab : a.Before b) : ¬ b.Before a := by
  intro hba
  have hless : compare a.key b.key = .lt := order_eq_lt_iff.2 hab
  have hmore : compare b.key a.key = .lt := order_eq_lt_iff.2 hba
  exact absurd hmore (Std.OrientedCmp.not_lt_of_lt hless)

theorem jobId_eq_of_order_eq {a b : QueuedBuild} (h : a.order b = .eq) : a.jobId = b.jobId := by
  have hkey : a.key = b.key := Std.LawfulEqCmp.eq_of_compare h
  exact congrArg QueueKey.jobId hkey

theorem order_swap (a b : QueuedBuild) : b.order a = (a.order b).swap := by
  unfold order
  exact Std.OrientedCmp.eq_swap

theorem isLE_order_trans {a b c : QueuedBuild} (hab : (a.order b).isLE) (hbc : (b.order c).isLE) :
    (a.order c).isLE := by
  unfold order at hab hbc ⊢
  exact Std.TransCmp.isLE_trans hab hbc

theorem mem_sort {a : QueuedBuild} {bs : List QueuedBuild} : a ∈ sort bs ↔ a ∈ bs :=
  List.mem_mergeSort

theorem sort_perm (bs : List QueuedBuild) : (sort bs).Perm bs := List.mergeSort_perm bs _

/-- Builds with different ids are put into strict order. -/
theorem sort_pairwise {bs : List QueuedBuild} (h : bs.Pairwise fun a b ↦ a.jobId ≠ b.jobId) :
    (sort bs).Pairwise Before := by
  have hle : (sort bs).Pairwise fun a b ↦ (a.order b).isLE := by
    apply List.pairwise_mergeSort
    · intro a b c hab hbc
      exact isLE_order_trans hab hbc
    · intro a b
      rw [order_swap a b]
      cases a.order b <;> rfl
  have hne : (sort bs).Pairwise fun a b ↦ a.jobId ≠ b.jobId :=
    (sort_perm bs).symm.pairwise h fun hab ↦ hab.symm
  refine (hle.and hne).imp fun {a b} hab ↦ ?_
  rw [← order_eq_lt_iff]
  cases horder : a.order b with
  | lt => rfl
  | eq => exact absurd (jobId_eq_of_order_eq horder) hab.2
  | gt => simp [horder] at hab

theorem nodup_of_pairwise {bs : List QueuedBuild} (h : bs.Pairwise Before) : bs.Nodup := by
  refine h.imp fun {a b} hab heq ↦ ?_
  rw [heq] at hab
  exact hab.not_before hab

/-- There is one way to put builds into strict order. -/
theorem eq_of_mem_iff {as bs : List QueuedBuild} (ha : as.Pairwise Before)
    (hb : bs.Pairwise Before) (hmem : ∀ b, b ∈ as ↔ b ∈ bs) : as = bs := by
  have hperm : as.Perm bs :=
    (List.perm_ext_iff_of_nodup (nodup_of_pairwise ha) (nodup_of_pairwise hb)).2 hmem
  exact hperm.eq_of_pairwise (fun a b _ _ hab hba ↦ absurd hba hab.not_before) ha hb

end QueuedBuild

end BuildQueue
