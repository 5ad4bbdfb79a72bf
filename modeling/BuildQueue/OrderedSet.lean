/-!
# Ordered sets

A finite set over a linear order is a strictly ascending list. Equal sets are therefore equal
values, and reading the members off gives them in order and without repeats.
-/

namespace BuildQueue

variable {α : Type}

/-- Each element is strictly below all later ones. -/
def Ascending [Ord α] (xs : List α) : Prop :=
  xs.Pairwise fun a b ↦ compare a b = .lt

instance [Ord α] (xs : List α) : Decidable (Ascending xs) :=
  inferInstanceAs (Decidable (xs.Pairwise _))

namespace Ascending

variable [Ord α]

protected theorem nil : Ascending ([] : List α) := List.Pairwise.nil

/-- Puts an element at its place; an element that is there stays alone. -/
def insert (a : α) : List α → List α
  | [] => [a]
  | b :: bs =>
    match compare a b with
    | .lt => a :: b :: bs
    | .eq => b :: bs
    | .gt => b :: insert a bs

theorem mem_insert [Std.LawfulEqOrd α] {a x : α} {xs : List α} :
    x ∈ insert a xs ↔ x = a ∨ x ∈ xs := by
  induction xs with
  | nil => simp [insert]
  | cons b bs ih =>
    unfold insert
    split
    next => simp
    next h =>
      obtain rfl := Std.LawfulEqCmp.eq_of_compare h
      simp
    next => simp only [List.mem_cons, ih]; grind

protected theorem insertion [Std.TransOrd α] [Std.LawfulEqOrd α] (a : α) {xs : List α}
    (h : Ascending xs) : Ascending (insert a xs) := by
  induction xs with
  | nil => simp [insert, Ascending]
  | cons b bs ih =>
    obtain ⟨hb, hbs⟩ := List.pairwise_cons.1 h
    unfold insert
    split
    next hab =>
      refine List.pairwise_cons.2 ⟨fun c hc ↦ ?_, h⟩
      rcases List.mem_cons.1 hc with rfl | hc
      · exact hab
      · exact Std.TransCmp.lt_trans hab (hb c hc)
    next => exact h
    next hab =>
      refine List.pairwise_cons.2 ⟨fun c hc ↦ ?_, ih hbs⟩
      rcases mem_insert.1 hc with rfl | hc
      · exact Std.OrientedCmp.lt_of_gt hab
      · exact hb c hc

/-- Two ascending lists with the same members are the same list. -/
theorem ext [Std.TransOrd α] [Std.LawfulEqOrd α] {xs ys : List α} (hx : Ascending xs)
    (hy : Ascending ys) (h : ∀ a, a ∈ xs ↔ a ∈ ys) : xs = ys := by
  induction xs generalizing ys with
  | nil => exact (List.eq_nil_iff_forall_not_mem.2 fun a ha ↦ by simpa using (h a).2 ha).symm
  | cons x xs ih =>
    cases ys with
    | nil => exact absurd ((h x).1 (by simp)) (by simp)
    | cons y ys =>
      obtain ⟨hx₁, hx₂⟩ := List.pairwise_cons.1 hx
      obtain ⟨hy₁, hy₂⟩ := List.pairwise_cons.1 hy
      have irrefl : ∀ a : α, compare a a ≠ .lt := fun a ↦ by simp [Std.ReflCmp.compare_self]
      have asymm : ∀ a b : α, compare a b = .lt → compare b a ≠ .lt := fun a b hab hba ↦
        irrefl a (Std.TransCmp.lt_trans hab hba)
      have hxy : x = y := by
        rcases List.mem_cons.1 ((h x).1 (by simp)) with rfl | hxm
        · rfl
        rcases List.mem_cons.1 ((h y).2 (by simp)) with rfl | hym
        · rfl
        exact absurd (hy₁ x hxm) (asymm x y (hx₁ y hym))
      subst hxy
      refine congrArg (x :: ·) (ih hx₂ hy₂ fun a ↦ ⟨fun ha ↦ ?_, fun ha ↦ ?_⟩)
      · rcases List.mem_cons.1 ((h a).1 (List.mem_cons_of_mem _ ha)) with rfl | hm
        · exact absurd (hx₁ a ha) (irrefl a)
        · exact hm
      · rcases List.mem_cons.1 ((h a).2 (List.mem_cons_of_mem _ ha)) with rfl | hm
        · exact absurd (hy₁ a ha) (irrefl a)
        · exact hm

end Ascending

/-- A finite set, kept as its members in ascending order. -/
@[ext]
structure OrderedSet (α : Type) [Ord α] where
  /-- The members in ascending order. -/
  toList : List α
  ascending : Ascending toList
  deriving DecidableEq

namespace OrderedSet

variable [Ord α]

instance : Membership α (OrderedSet α) := ⟨fun s a ↦ a ∈ s.toList⟩

@[simp] theorem mem_toList {a : α} {s : OrderedSet α} : a ∈ s.toList ↔ a ∈ s := Iff.rfl

instance [DecidableEq α] (a : α) (s : OrderedSet α) : Decidable (a ∈ s) :=
  inferInstanceAs (Decidable (a ∈ s.toList))

def empty : OrderedSet α := ⟨[], .nil⟩

instance : Inhabited (OrderedSet α) := ⟨empty⟩

def isEmpty (s : OrderedSet α) : Bool := s.toList.isEmpty

def size (s : OrderedSet α) : Nat := s.toList.length

/-- Every member of `s` is one of `t`. -/
def subset [DecidableEq α] (s t : OrderedSet α) : Bool := s.toList.all (· ∈ t)

@[simp] theorem not_mem_empty {a : α} : a ∉ (empty : OrderedSet α) := by
  simp [empty, ← mem_toList]

theorem isEmpty_iff {s : OrderedSet α} : s.isEmpty = true ↔ s = empty := by
  simp [isEmpty, empty, OrderedSet.ext_iff]

theorem subset_iff [DecidableEq α] {s t : OrderedSet α} :
    s.subset t = true ↔ ∀ a, a ∈ s → a ∈ t := by
  simp [subset]

variable [Std.TransOrd α] [Std.LawfulEqOrd α]

def insert (s : OrderedSet α) (a : α) : OrderedSet α :=
  ⟨Ascending.insert a s.toList, s.ascending.insertion a⟩

def ofList (xs : List α) : OrderedSet α := xs.foldl insert empty

@[simp] theorem mem_insert {a x : α} {s : OrderedSet α} : x ∈ s.insert a ↔ x = a ∨ x ∈ s :=
  Ascending.mem_insert

theorem mem_foldl_insert {x : α} {xs : List α} {s : OrderedSet α} :
    x ∈ xs.foldl insert s ↔ x ∈ xs ∨ x ∈ s := by
  induction xs generalizing s with
  | nil => simp
  | cons a xs ih => simp only [List.foldl_cons, ih, mem_insert, List.mem_cons]; grind

@[simp] theorem mem_ofList {x : α} {xs : List α} : x ∈ ofList xs ↔ x ∈ xs := by
  simp [ofList, mem_foldl_insert]

theorem ext_mem {s t : OrderedSet α} (h : ∀ a, a ∈ s ↔ a ∈ t) : s = t :=
  OrderedSet.ext (s.ascending.ext t.ascending h)

/-- Reading a set off and building it again changes nothing. -/
@[simp] theorem ofList_toList (s : OrderedSet α) : ofList s.toList = s :=
  ext_mem fun a ↦ by simp

end OrderedSet

end BuildQueue
