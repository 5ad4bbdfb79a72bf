import BuildQueue.OrderedSet

/-!
# Tables

A finite map over an ordered key type is a list of entries with strictly ascending keys. As for
sets, equal maps are equal values and the entries come out by key.
-/

namespace BuildQueue

variable {κ ν : Type}

/-- The keys of a list of entries. -/
def Entries.keys (es : List (κ × ν)) : List κ := es.map Prod.fst

namespace Entries

variable [Ord κ]

def find? (k : κ) : List (κ × ν) → Option ν
  | [] => none
  | (k', v) :: es => if compare k k' = .eq then some v else find? k es

/-- Gives a key its value, in the place of an older one. -/
def insert (k : κ) (v : ν) : List (κ × ν) → List (κ × ν)
  | [] => [(k, v)]
  | (k', v') :: es =>
    match compare k k' with
    | .lt => (k, v) :: (k', v') :: es
    | .eq => (k, v) :: es
    | .gt => (k', v') :: insert k v es

def erase (k : κ) (es : List (κ × ν)) : List (κ × ν) :=
  es.filter fun e ↦ compare k e.1 != .eq

theorem mem_keys_insert [Std.LawfulEqOrd κ] {k x : κ} {v : ν} {es : List (κ × ν)} :
    x ∈ keys (insert k v es) ↔ x = k ∨ x ∈ keys es := by
  induction es with
  | nil => simp [insert, keys]
  | cons e es ih =>
    obtain ⟨k', v'⟩ := e
    unfold insert
    split
    next => simp [keys]
    next h =>
      obtain rfl := Std.LawfulEqCmp.eq_of_compare h
      simp [keys]
    next =>
      simp only [keys, List.map_cons, List.mem_cons] at ih ⊢
      rw [ih]
      grind

protected theorem ascending_insert [Std.TransOrd κ] [Std.LawfulEqOrd κ] (k : κ) (v : ν)
    {es : List (κ × ν)} (h : Ascending (keys es)) : Ascending (keys (insert k v es)) := by
  induction es with
  | nil => simp [insert, keys, Ascending]
  | cons e es ih =>
    obtain ⟨k', v'⟩ := e
    obtain ⟨hb, hbs⟩ := List.pairwise_cons.1 h
    unfold insert
    split
    next hkk =>
      refine List.pairwise_cons.2 ⟨fun c hc ↦ ?_, h⟩
      rcases List.mem_cons.1 hc with rfl | hc
      · exact hkk
      · exact Std.TransCmp.lt_trans hkk (hb c hc)
    next hkk =>
      obtain rfl := Std.LawfulEqCmp.eq_of_compare hkk
      exact h
    next hkk =>
      refine List.pairwise_cons.2 ⟨fun c hc ↦ ?_, ih hbs⟩
      rcases mem_keys_insert.1 hc with rfl | hc
      · exact Std.OrientedCmp.lt_of_gt hkk
      · exact hb c hc

protected theorem ascending_erase (k : κ) {es : List (κ × ν)} (h : Ascending (keys es)) :
    Ascending (keys (erase k es)) :=
  List.Pairwise.sublist ((List.filter_sublist).map _) h

end Entries

/-- A finite map, kept as its entries in ascending order of their keys. -/
@[ext]
structure Table (κ ν : Type) [Ord κ] where
  /-- The entries in ascending order of their keys. -/
  toList : List (κ × ν)
  ascending : Ascending (Entries.keys toList)
  deriving DecidableEq

namespace Table

variable [Ord κ]

def empty : Table κ ν := ⟨[], .nil⟩

instance : Inhabited (Table κ ν) := ⟨empty⟩

def find? (t : Table κ ν) (k : κ) : Option ν := Entries.find? k t.toList

def contains (t : Table κ ν) (k : κ) : Bool := (t.find? k).isSome

def keys (t : Table κ ν) : List κ := t.toList.map Prod.fst

def values (t : Table κ ν) : List ν := t.toList.map Prod.snd

def size (t : Table κ ν) : Nat := t.toList.length

def erase (t : Table κ ν) (k : κ) : Table κ ν :=
  ⟨Entries.erase k t.toList, Entries.ascending_erase k t.ascending⟩

def insert [Std.TransOrd κ] [Std.LawfulEqOrd κ] (t : Table κ ν) (k : κ) (v : ν) : Table κ ν :=
  ⟨Entries.insert k v t.toList, Entries.ascending_insert k v t.ascending⟩

@[simp] theorem find?_empty (k : κ) : (empty : Table κ ν).find? k = none := rfl

@[simp] theorem find?_insert_self [Std.TransOrd κ] [Std.LawfulEqOrd κ] (t : Table κ ν) (k : κ)
    (v : ν) :
    (t.insert k v).find? k = some v := by
  suffices h : ∀ es : List (κ × ν), Entries.find? k (Entries.insert k v es) = some v from h _
  intro es
  induction es with
  | nil => simp [Entries.insert, Entries.find?]
  | cons e es ih =>
    unfold Entries.insert
    split
    next => simp [Entries.find?]
    next => simp [Entries.find?]
    next h => simp [Entries.find?, h, ih]

theorem find?_insert_of_ne [Std.TransOrd κ] [Std.LawfulEqOrd κ] (t : Table κ ν) {k k' : κ} (v : ν)
    (hne : k' ≠ k) :
    (t.insert k v).find? k' = t.find? k' := by
  have hcmp : compare k' k ≠ .eq := fun h ↦ hne (Std.LawfulEqCmp.eq_of_compare h)
  suffices h : ∀ es : List (κ × ν),
      Entries.find? k' (Entries.insert k v es) = Entries.find? k' es from h _
  intro es
  induction es with
  | nil => simp [Entries.insert, Entries.find?, hcmp]
  | cons e es ih =>
    unfold Entries.insert
    split
    next => simp [Entries.find?, hcmp]
    next h =>
      obtain rfl := Std.LawfulEqCmp.eq_of_compare h
      simp [Entries.find?, hcmp]
    next => simp [Entries.find?, ih]

theorem find?_insert [Std.TransOrd κ] [Std.LawfulEqOrd κ] [DecidableEq κ] (t : Table κ ν)
    (k k' : κ) (v : ν) :
    (t.insert k v).find? k' = if k' = k then some v else t.find? k' := by
  split
  next h => subst h; simp
  next h => exact find?_insert_of_ne t v h

@[simp] theorem find?_erase_self (t : Table κ ν) (k : κ) : (t.erase k).find? k = none := by
  suffices h : ∀ es : List (κ × ν), Entries.find? k (Entries.erase k es) = none from h _
  intro es
  induction es with
  | nil => rfl
  | cons e es ih =>
    by_cases h : compare k e.1 = .eq
    · simpa [Entries.erase, h] using ih
    · simpa [Entries.erase, h, Entries.find?] using ih

theorem find?_erase_of_ne [Std.LawfulEqOrd κ] (t : Table κ ν) {k k' : κ} (hne : k' ≠ k) :
    (t.erase k).find? k' = t.find? k' := by
  suffices h : ∀ es : List (κ × ν),
      Entries.find? k' (Entries.erase k es) = Entries.find? k' es from h _
  intro es
  induction es with
  | nil => rfl
  | cons e es ih =>
    by_cases h : compare k e.1 = .eq
    · have hk : compare k' e.1 ≠ .eq := fun h' ↦ hne (by
        rw [Std.LawfulEqCmp.eq_of_compare h, Std.LawfulEqCmp.eq_of_compare h'])
      simpa [Entries.erase, h, Entries.find?, hk] using ih
    · simp only [Entries.erase, h, Entries.find?, bne_iff_ne, ne_eq, not_false_eq_true,
        List.filter_cons_of_pos]
      split
      · rfl
      · simpa [Entries.erase] using ih

theorem find?_eq_some_iff [Std.LawfulEqOrd κ] (t : Table κ ν) (k : κ) (v : ν) :
    t.find? k = some v ↔ (k, v) ∈ t.toList := by
  obtain ⟨es, h⟩ := t
  simp only [find?]
  induction es with
  | nil => simp [Entries.find?]
  | cons e es ih =>
    obtain ⟨k', v'⟩ := e
    obtain ⟨hk, hes⟩ := List.pairwise_cons.1 h
    have ih := ih hes
    unfold Entries.find?
    split
    next heq =>
      obtain rfl := Std.LawfulEqCmp.eq_of_compare heq
      have hnot : (k, v) ∉ es := fun hm ↦ by
        have := hk k (List.mem_map.2 ⟨_, hm, rfl⟩)
        simp [Std.ReflCmp.compare_self] at this
      simp [hnot, eq_comm]
    next hne =>
      have : k ≠ k' := fun h' ↦ hne (by simp [h', Std.ReflCmp.compare_self])
      simp [ih, this]

end Table

end BuildQueue
