import BuildQueue.Json.Record
import Mathlib.Data.List.Perm.Basic

/-!
# Likeness of JSON values

Values need not be equal to say the same. The members of a record stand in any order, and members
with other names are passed over; the items of a set stand in any order and may repeat. How alike
two values have to be depends on what is read from them, so there is a likeness for each type, made
of the likenesses of its members.

Records that are alike have come from one another step by step. What they hold is compared at once:
under each name the same values up to order and likeness, and likewise at each place of an array.
-/

namespace BuildQueue.Json

/-- Which values say the same. -/
structure Likeness where
  Alike : Json → Json → Prop
  equivalence : Equivalence Alike

/-- The names of members, in their order, and which of their values are alike. -/
abbrev Fields := List (String × Likeness)

variable {fields : Fields}

/-! ## Records and sets -/

/-- Records that are read alike member by member. -/
inductive RecordAlike (fields : Fields) : Json → Json → Prop
  | refl (j : Json) : RecordAlike fields j j
  | symm {j k : Json} (h : RecordAlike fields j k) : RecordAlike fields k j
  | trans {i j k : Json} (h : RecordAlike fields i j) (h' : RecordAlike fields j k) :
    RecordAlike fields i k
  /-- The members stand in another order. -/
  | order {ms ns : List (Text × Json)} (h : ms.Perm ns) :
    RecordAlike fields (.object ms) (.object ns)
  /-- There is a member more, whose name is none of these. -/
  | other {name : Text} (h : ∀ f ∈ fields, name ≠ some f.1) (j : Json) (ms : List (Text × Json)) :
    RecordAlike fields (.object ms) (.object ((name, j) :: ms))
  /-- A member has a value that is alike. -/
  | value {name : String} {j k : Json} (h : ∀ f ∈ fields, f.1 = name → f.2.Alike j k)
    (ms : List (Text × Json)) :
    RecordAlike fields (.object ((some name, j) :: ms)) (.object ((some name, k) :: ms))
  /-- A value that is given by its place is alike. -/
  | item {i : Nat} {f : String × Likeness} (hf : fields[i]? = some f) {js : List Json} {j k : Json}
    (hj : js[i]? = some j) (h : f.2.Alike j k) :
    RecordAlike fields (.array js) (.array (js.set i k))

/-- Arrays with the same items, in any order and however often. -/
inductive SetAlike : Json → Json → Prop
  | refl (j : Json) : SetAlike j j
  | items {js ks : List Json} (h : ∀ j, j ∈ js ↔ j ∈ ks) : SetAlike (.array js) (.array ks)

namespace Likeness

/-- Only equal values are alike. -/
def exact : Likeness := ⟨Eq, eq_equivalence⟩

def record (fields : Fields) : Likeness := ⟨RecordAlike fields, .refl, .symm, .trans⟩

def set : Likeness where
  Alike := SetAlike
  equivalence.refl := .refl
  equivalence.symm
    | .refl j => .refl j
    | .items h => .items fun j ↦ (h j).symm
  equivalence.trans
    | .refl _, h => h
    | h, .refl _ => h
    | .items h, .items h' => .items fun j ↦ (h j).trans (h' j)

end Likeness

/-! ## Members by their names -/

/-- The values of the members with a name, in their order. -/
def valuesOf (name : String) (members : List (Text × Json)) : List Json :=
  (members.filter (·.1 = some name)).map Prod.snd

theorem valuesOf_cons_self (name : String) (j : Json) (ms : List (Text × Json)) :
    valuesOf name ((some name, j) :: ms) = j :: valuesOf name ms := by
  unfold valuesOf
  rw [List.filter_cons_of_pos (by simp), List.map_cons]

theorem valuesOf_cons_of_ne {name : Text} {other : String} (h : name ≠ some other) (j : Json)
    (ms : List (Text × Json)) : valuesOf other ((name, j) :: ms) = valuesOf other ms := by
  unfold valuesOf
  rw [List.filter_cons_of_neg (by simpa using h)]

/-- The members with these names have values that are alike, in whatever order. -/
def MembersAlike (fields : Fields) (ms ns : List (Text × Json)) : Prop :=
  ∀ f ∈ fields,
    Relation.Comp (List.Forall₂ f.2.Alike) List.Perm (valuesOf f.1 ms) (valuesOf f.1 ns)

namespace Likeness

variable (l : Likeness) {is js ks : List Json}

theorem forall₂_refl (js : List Json) : List.Forall₂ l.Alike js js :=
  List.forall₂_same.2 fun j _ ↦ l.equivalence.refl j

theorem forall₂_symm (h : List.Forall₂ l.Alike js ks) : List.Forall₂ l.Alike ks js :=
  h.flip.imp fun _ _ ↦ l.equivalence.symm

theorem forall₂_trans (h : List.Forall₂ l.Alike is js) (h' : List.Forall₂ l.Alike js ks) :
    List.Forall₂ l.Alike is ks := by
  induction h generalizing ks with
  | nil => exact h'
  | cons hij _ ih =>
    obtain ⟨k, ks, hjk, hks, rfl⟩ := List.forall₂_cons_left_iff.1 h'
    exact .cons (l.equivalence.trans hij hjk) (ih hks)

end Likeness

namespace MembersAlike

variable {ms ns os : List (Text × Json)}

theorem of_valuesOf (h : ∀ f ∈ fields, List.Forall₂ f.2.Alike (valuesOf f.1 ms) (valuesOf f.1 ns)) :
    MembersAlike fields ms ns := fun f hf ↦ ⟨_, h f hf, .refl _⟩

protected theorem refl (ms : List (Text × Json)) : MembersAlike fields ms ms :=
  of_valuesOf fun f _ ↦ f.2.forall₂_refl _

protected theorem symm (h : MembersAlike fields ms ns) : MembersAlike fields ns ms := by
  intro f hf
  obtain ⟨js, halike, hperm⟩ := h f hf
  exact List.perm_comp_forall₂ hperm.symm (f.2.forall₂_symm halike)

protected theorem trans (h : MembersAlike fields ms ns) (h' : MembersAlike fields ns os) :
    MembersAlike fields ms os := by
  intro f hf
  obtain ⟨js, halike, hperm⟩ := h f hf
  obtain ⟨ks, halike', hperm'⟩ := h' f hf
  obtain ⟨is, hmiddle, hperm''⟩ := List.perm_comp_forall₂ hperm halike'
  exact ⟨is, f.2.forall₂_trans halike hmiddle, hperm''.trans hperm'⟩

theorem of_perm (h : ms.Perm ns) : MembersAlike fields ms ns :=
  fun f _ ↦ ⟨_, f.2.forall₂_refl _, (h.filter _).map _⟩

theorem cons_other {name : Text} (h : ∀ f ∈ fields, name ≠ some f.1) (j : Json) :
    MembersAlike fields ms ((name, j) :: ms) := by
  refine of_valuesOf fun f hf ↦ ?_
  rw [valuesOf_cons_of_ne (h f hf)]
  exact f.2.forall₂_refl _

theorem cons_value {name : String} {j k : Json} (h : ∀ f ∈ fields, f.1 = name → f.2.Alike j k) :
    MembersAlike fields ((some name, j) :: ms) ((some name, k) :: ms) := by
  refine of_valuesOf fun f hf ↦ ?_
  by_cases hname : f.1 = name
  · rw [← hname, valuesOf_cons_self, valuesOf_cons_self]
    exact .cons (h f hf hname) (f.2.forall₂_refl _)
  · have hother : some name ≠ some f.1 := fun heq ↦ hname (Option.some.inj heq).symm
    rw [valuesOf_cons_of_ne hother, valuesOf_cons_of_ne hother]
    exact f.2.forall₂_refl _

end MembersAlike

/-! ## Values by their places -/

/-- The values at the places of the members are alike, and those after them are the same. -/
inductive ItemsAlike : Fields → List Json → List Json → Prop
  | same (fields : Fields) (js : List Json) : ItemsAlike fields js js
  | cons {f : String × Likeness} {fields : Fields} {j k : Json} {js ks : List Json}
    (h : f.2.Alike j k) (hs : ItemsAlike fields js ks) :
    ItemsAlike (f :: fields) (j :: js) (k :: ks)

namespace ItemsAlike

variable {is js ks : List Json}

protected theorem symm (h : ItemsAlike fields js ks) : ItemsAlike fields ks js := by
  induction h with
  | same fields js => exact .same fields js
  | @cons f _ _ _ _ _ h _ ih => exact .cons (f.2.equivalence.symm h) ih

protected theorem trans (h : ItemsAlike fields is js) (h' : ItemsAlike fields js ks) :
    ItemsAlike fields is ks := by
  induction h generalizing ks with
  | same => exact h'
  | @cons f _ _ _ _ _ h hs ih =>
    cases h' with
    | same => exact .cons h hs
    | cons h' hs' => exact .cons (f.2.equivalence.trans h h') (ih hs')

theorem nil_left (h : ItemsAlike fields [] ks) : ks = [] := by
  cases h
  rfl

theorem cons_left {f : String × Likeness} {j : Json} (h : ItemsAlike (f :: fields) (j :: js) ks) :
    ∃ k ks', ks = k :: ks' ∧ f.2.Alike j k ∧ ItemsAlike fields js ks' := by
  cases h with
  | same => exact ⟨j, js, rfl, f.2.equivalence.refl j, .same fields js⟩
  | cons h hs => exact ⟨_, _, rfl, h, hs⟩

theorem set {i : Nat} {f : String × Likeness} {j k : Json} (hf : fields[i]? = some f)
    (hj : js[i]? = some j) (h : f.2.Alike j k) : ItemsAlike fields js (js.set i k) := by
  induction i generalizing fields js with
  | zero =>
    cases fields <;> cases js <;> simp at hf hj
    subst hf hj
    exact .cons h (.same _ _)
  | succ i ih =>
    cases fields <;> cases js <;> simp at hf hj
    exact .cons (Likeness.equivalence _ |>.refl _) (ih hf hj)

/-- Where only equal values are alike, all values are equal. -/
theorem eq_of_exact (h : ItemsAlike fields js ks) (hfields : ∀ f ∈ fields, f.2 = .exact) :
    js = ks := by
  induction h with
  | same => rfl
  | @cons f fields j k js ks h hs ih =>
    rw [hfields f List.mem_cons_self] at h
    rw [ih fun f hf ↦ hfields f (List.mem_cons_of_mem _ hf)]
    exact congrArg (· :: ks) h

end ItemsAlike

/-! ## Records -/

/-- Records whose values are alike. -/
inductive ValuesAlike (fields : Fields) : Json → Json → Prop
  | same (j : Json) : ValuesAlike fields j j
  | object {ms ns : List (Text × Json)} (h : MembersAlike fields ms ns) :
    ValuesAlike fields (.object ms) (.object ns)
  | array {js ks : List Json} (h : ItemsAlike fields js ks) :
    ValuesAlike fields (.array js) (.array ks)

/-- The values of records that are alike are alike. -/
theorem RecordAlike.valuesAlike {j k : Json} (h : RecordAlike fields j k) :
    ValuesAlike fields j k := by
  -- No step leads from an object to an array, so two steps in a row are of one kind.
  induction h with
  | refl j => exact .same j
  | symm _ ih =>
    cases ih with
    | same => exact .same _
    | object h => exact .object h.symm
    | array h => exact .array h.symm
  | trans _ _ ih ih' =>
    cases ih with
    | same => exact ih'
    | object h =>
      cases ih' with
      | same => exact .object h
      | object h' => exact .object (h.trans h')
    | array h =>
      cases ih' with
      | same => exact .array h
      | array h' => exact .array (h.trans h')
  | order h => exact .object (.of_perm h)
  | other h j ms => exact .object (.cons_other h j)
  | value h ms => exact .object (.cons_value h)
  | item hf hj h => exact .array (.set hf hj h)

/-! ## Reading members -/

/-- What is read of a member is alike. -/
def ValueAlike (l : Likeness) : Option Json → Option Json → Prop
  | some j, some k => l.Alike j k
  | none, none => True
  | _, _ => False

/-- What is read of the members is alike, one by one. -/
def ReadAlike : Fields → List (Option Json) → List (Option Json) → Prop
  | f :: fields, v :: vs, w :: ws => ValueAlike f.2 v w ∧ ReadAlike fields vs ws
  | [], [], [] => True
  | _, _, _ => False

theorem ValueAlike.refl (l : Likeness) (v : Option Json) : ValueAlike l v v := by
  cases v with
  | none => trivial
  | some j => exact l.equivalence.refl j

namespace Member

variable {m : Member} {ms ns : List (Text × Json)} {v w : Option Json}

/-- A member is given once, or it is missing as in an object without members. -/
theorem find?_cases (h : m.find? ms = some v) :
    (∃ j, valuesOf m.name ms = [j] ∧ v = some j) ∨
      (valuesOf m.name ms = [] ∧ m.find? [] = some v) := by
  unfold find? at h
  unfold valuesOf
  split at h
  next name j hfound =>
    rw [hfound]
    exact .inl ⟨j, rfl, (Option.some.inj h).symm⟩
  next hfound =>
    rw [hfound]
    exact .inr ⟨rfl, h⟩
  next => cases h

theorem find?_alike {l : Likeness}
    (h : Relation.Comp (List.Forall₂ l.Alike) List.Perm (valuesOf m.name ms) (valuesOf m.name ns))
    (hv : m.find? ms = some v) (hw : m.find? ns = some w) : ValueAlike l v w := by
  obtain ⟨js, halike, hperm⟩ := h
  -- A member that one record lacks has no value in the other one either.
  rcases find?_cases hv with ⟨j, hj, rfl⟩ | ⟨hnone, hv⟩ <;>
    rcases find?_cases hw with ⟨k, hk, rfl⟩ | ⟨hnone', hw⟩
  · rw [hk, List.perm_singleton] at hperm
    rw [hj, hperm] at halike
    exact (List.forall₂_cons.1 halike).1
  · rw [hnone', List.perm_nil] at hperm
    rw [hj, hperm] at halike
    cases halike
  · rw [hk, List.perm_singleton] at hperm
    rw [hnone, hperm] at halike
    cases halike
  · obtain rfl : v = w := Option.some.inj (hv.symm.trans hw)
    exact .refl l v

end Member

/-- The fields are those of these members. -/
def Describes (fields : Fields) (members : List Member) : Prop :=
  fields.map Prod.fst = members.map Member.name

theorem Describes.cons_iff {m : Member} {members : List Member} :
    Describes fields (m :: members) ↔
      ∃ l rest, fields = (m.name, l) :: rest ∧ Describes rest members := by
  constructor
  · intro h
    obtain ⟨⟨_, l⟩, rest, rfl, rfl, hrest⟩ := List.map_eq_cons_iff.1 h
    exact ⟨l, rest, rfl, hrest⟩
  · rintro ⟨l, rest, rfl, hrest⟩
    exact congrArg (m.name :: ·) hrest

section

variable {members : List Member} {vs ws : List (Option Json)}

theorem readAlike_find? {ms ns : List (Text × Json)} (hfields : Describes fields members)
    (h : MembersAlike fields ms ns) (hv : members.mapM (·.find? ms) = some vs)
    (hw : members.mapM (·.find? ns) = some ws) : ReadAlike fields vs ws := by
  induction members generalizing fields vs ws with
  | nil =>
    obtain rfl := List.map_eq_nil_iff.1 hfields
    cases hv
    cases hw
    trivial
  | cons m members ih =>
    obtain ⟨l, rest, rfl, hrest⟩ := Describes.cons_iff.1 hfields
    simp only [List.mapM_cons, Option.bind_eq_bind, Option.bind_eq_some_iff, Option.pure_def,
      Option.some.injEq] at hv hw
    obtain ⟨v, hv, vs, hvs, rfl⟩ := hv
    obtain ⟨w, hw, ws, hws, rfl⟩ := hw
    exact ⟨Member.find?_alike (h _ List.mem_cons_self) hv hw,
      ih hrest (fun f hf ↦ h f (List.mem_cons_of_mem _ hf)) hvs hws⟩

theorem readAlike_zip? {js ks : List Json} (hfields : Describes fields members)
    (h : ItemsAlike fields js ks) (hv : Member.zip? members js = some vs)
    (hw : Member.zip? members ks = some ws) : ReadAlike fields vs ws := by
  induction members generalizing fields js ks vs ws with
  | nil =>
    obtain rfl := List.map_eq_nil_iff.1 hfields
    cases js with
    | cons => cases hv
    | nil =>
      obtain rfl := h.nil_left
      cases hv
      cases hw
      trivial
  | cons m members ih =>
    obtain ⟨l, rest, rfl, hrest⟩ := Describes.cons_iff.1 hfields
    cases js with
    | nil =>
      obtain rfl := h.nil_left
      rw [Member.zip?] at hv hw
      split at hv
      next habsence =>
        simp only [habsence] at hw
        obtain ⟨vs, hvs, rfl⟩ := Option.map_eq_some_iff.1 hv
        obtain ⟨ws, hws, rfl⟩ := Option.map_eq_some_iff.1 hw
        exact ⟨trivial, ih hrest (.same _ _) hvs hws⟩
      next => cases hv
    | cons j js =>
      obtain ⟨k, ks, rfl, hjk, hjs⟩ := h.cons_left
      obtain ⟨vs, hvs, rfl⟩ := Option.map_eq_some_iff.1 hv
      obtain ⟨ws, hws, rfl⟩ := Option.map_eq_some_iff.1 hw
      exact ⟨hjk, ih hrest hjs hvs hws⟩

theorem mapM_find?_of_members? {ms : List (Text × Json)}
    (h : (object ms).members? members = some vs) : members.mapM (·.find? ms) = some vs := by
  unfold members? at h
  exact (Option.ite_none_right_eq_some.1 h).2

/-- What is read of records whose values are alike is alike. -/
theorem readAlike_members? {j k : Json} (hfields : Describes fields members)
    (h : ValuesAlike fields j k) (hv : j.members? members = some vs)
    (hw : k.members? members = some ws) : ReadAlike fields vs ws := by
  have hobject {ms ns : List (Text × Json)} (h : MembersAlike fields ms ns)
      (hv : (object ms).members? members = some vs)
      (hw : (object ns).members? members = some ws) : ReadAlike fields vs ws :=
    readAlike_find? hfields h (mapM_find?_of_members? hv) (mapM_find?_of_members? hw)
  cases h with
  | same =>
    cases j with
    | object ms => exact hobject (.refl ms) hv hw
    | array js => exact readAlike_zip? hfields (.same fields js) hv hw
    | _ => cases hv
  | object h => exact hobject h hv hw
  | array h => exact readAlike_zip? hfields h hv hw

end

/-! ## Reading tags -/

section

variable {tag name : String} {outer : Nat} {rest : Json}

/-- The tag of an object is the only member of its name. -/
theorem tagged?_object {ms : List (Text × Json)}
    (h : (object ms).tagged? tag outer = some (name, rest)) :
    (∃ j, valuesOf tag ms = [j] ∧ j.string? = some name) ∧
      rest = .object (ms.filter (·.1 != some tag)) := by
  unfold tagged? at h
  unfold valuesOf
  dsimp only at h
  split at h
  next => cases h
  next =>
    split at h
    next j hfound =>
      obtain ⟨other, hname, heq⟩ := Option.bind_eq_some_iff.1 h
      cases heq
      exact ⟨⟨j, by rw [hfound]; rfl, hname⟩, rfl⟩
    next => cases h

/-- Fields of which only equal values are alike. -/
def exactly (names : List String) : Fields := names.map fun name ↦ (name, .exact)

theorem valuesOf_filter {name : String} (h : name ≠ tag) (ms : List (Text × Json)) :
    valuesOf name (ms.filter (·.1 != some tag)) = valuesOf name ms := by
  unfold valuesOf
  rw [List.filter_filter]
  refine congrArg (List.map Prod.snd) (List.filter_congr fun m _ ↦ ?_)
  by_cases hm : m.1 = some name <;> simp [hm, h]

/-- Records of the same values, but for the tag, have the same tag. -/
theorem tagged?_alike {names : List String} {j k : Json} {name' : String} {rest' : Json}
    (halike : RecordAlike (exactly (tag :: names)) j k) (htag : tag ∉ names)
    (hj : j.tagged? tag outer = some (name, rest))
    (hk : k.tagged? tag outer = some (name', rest')) :
    name = name' ∧ ∀ sub ⊆ names, ValuesAlike (exactly sub) rest rest' := by
  cases halike.valuesAlike with
  | same =>
    rw [hj] at hk
    cases hk
    exact ⟨rfl, fun _ _ ↦ .same rest⟩
  | object h =>
    obtain ⟨⟨i, hi, hname⟩, rfl⟩ := tagged?_object hj
    obtain ⟨⟨i', hi', hname'⟩, rfl⟩ := tagged?_object hk
    have hmem {n : String} (hn : n ∈ names) : (n, Likeness.exact) ∈ exactly (tag :: names) :=
      List.mem_map_of_mem (List.mem_cons_of_mem _ hn)
    constructor
    · obtain ⟨js, hequal, hperm⟩ := h (tag, .exact) List.mem_cons_self
      rw [hi', List.perm_singleton] at hperm
      rw [hi, hperm] at hequal
      obtain rfl : i = i' := (List.forall₂_cons.1 hequal).1
      exact Option.some.inj (hname.symm.trans hname')
    · intro sub hsub
      refine .object fun f hf ↦ ?_
      obtain ⟨n, hn, rfl⟩ := List.mem_map.1 hf
      have hne : n ≠ tag := by
        rintro rfl
        exact htag (hsub hn)
      rw [valuesOf_filter hne, valuesOf_filter hne]
      exact h _ (hmem (hsub hn))
  | array h =>
    have hsame := h.eq_of_exact fun f hf ↦ by
      obtain ⟨n, -, rfl⟩ := List.mem_map.1 hf
      rfl
    rw [← hsame, hj] at hk
    cases hk
    exact ⟨rfl, fun _ _ ↦ .same rest⟩

end

end BuildQueue.Json
