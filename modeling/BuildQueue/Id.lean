import BuildQueue.Text.Integer

/-!
# Identifiers

Every record is keyed by a signed 64-bit number. The kind of record is part of the type, so the id
of a runner cannot stand where the id of a build is meant.
-/

namespace BuildQueue

/-- The kinds of record that have ids. -/
inductive Resource where
  | job
  | runner
  | project
  | nameSpace
  deriving DecidableEq, Repr

/-- The id of a record of one kind. -/
@[ext]
structure Id (r : Resource) where
  value : Int64
  deriving DecidableEq

abbrev JobId := Id .job

abbrev RunnerId := Id .runner

abbrev ProjectId := Id .project

abbrev NamespaceId := Id .nameSpace

namespace Id

variable {r : Resource}

instance : Inhabited (Id r) := ⟨⟨0⟩⟩

instance : Ord (Id r) := ⟨fun a b ↦ compare a.value b.value⟩

theorem compare_def (a b : Id r) : compare a b = compare a.value b.value := rfl

instance : Std.TransOrd (Id r) where
  eq_swap {a b} := show compare a.value b.value = (compare b.value a.value).swap from
    Std.OrientedCmp.eq_swap
  isLE_trans {a b c} (hab : (compare a.value b.value).isLE)
      (hbc : (compare b.value c.value).isLE) :=
    show (compare a.value c.value).isLE from Std.TransCmp.isLE_trans hab hbc

instance : Std.LawfulEqOrd (Id r) where
  compare_self {a} := show compare a.value a.value = .eq from Std.ReflCmp.compare_self
  eq_of_compare {a b} (h : compare a.value b.value = .eq) :=
    Id.ext (Std.LawfulEqCmp.eq_of_compare h)

def toInt (i : Id r) : Int := i.value.toInt

def ofInt (n : Int) : Id r := ⟨Int64.ofInt n⟩

/-- The id of a number of the range, if it is one. -/
def ofInt? (n : Int) : Option (Id r) :=
  if IntegerRange.signed64.contains n then some (ofInt n) else none

@[simp] theorem ofInt?_toInt (i : Id r) : ofInt? i.toInt = some i := by
  have hrange : IntegerRange.signed64.contains i.toInt = true :=
    IntegerRange.contains_iff.2 ⟨Int64.le_toInt i.value, Int64.toInt_le i.value⟩
  unfold ofInt? ofInt
  rw [if_pos hrange]
  exact congrArg some (Id.ext (Int64.ofInt_toInt i.value))

theorem ofInt?_eq_some_iff {n : Int} {i : Id r} : ofInt? n = some i ↔ i.toInt = n := by
  constructor
  · intro h
    unfold ofInt? at h
    split at h
    next hcontains =>
      obtain ⟨hlowest, hhighest⟩ := IntegerRange.contains_iff.1 hcontains
      rw [← Option.some.inj h]
      exact Int64.toInt_ofInt_of_le hlowest (Int.lt_add_one_of_le hhighest)
    next => simp at h
  · intro h
    rw [← h, ofInt?_toInt]

instance : ToString (Id r) := ⟨fun i ↦ toString i.toInt⟩

def parse (s : String) : Except IntegerError (Id r) :=
  (IntegerRange.signed64.parse s.toList).map ofInt

/-- The id after this one; the largest id has none. -/
def next? (i : Id r) : Option (Id r) := ofInt? (i.toInt + 1)

end Id

end BuildQueue
