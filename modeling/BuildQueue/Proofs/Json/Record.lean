import BuildQueue.OrderedSet
import BuildQueue.Proofs.Json.Likeness
import BuildQueue.Proofs.Json.Spacing
import Mathlib.Data.List.Nodup

/-!
# Records read back

A type is read faithfully if its values are read back from what is written for them, and if what is
alike is read as the same value. A record is a table of parts, each of which is read faithfully. It
is read faithfully itself if it is read back from the values of its parts and these are what is
read.

Faithful reading goes over to texts. The compact text of a value is read as this value, and texts
that are alike but for their blanks are read as one value.
-/

namespace BuildQueue.Json

variable {α β : Type}

/-! ## Agreement -/

/-- Two readings that both come to something come to the same. -/
def Agree (x y : Option α) : Prop := ∀ a b, x = some a → y = some b → a = b

namespace Agree

protected theorem refl (x : Option α) : Agree x x :=
  fun _ _ ha hb ↦ Option.some.inj (ha.symm.trans hb)

theorem of_none (y : Option α) : Agree none y := fun _ _ ha ↦ nomatch ha

theorem none_right (x : Option α) : Agree x none := fun _ _ _ hb ↦ nomatch hb

/-- Readings that agree may be followed by readings that agree. -/
protected theorem bind {x y : Option α} (h : Agree x y) {f g : α → Option β}
    (hf : ∀ a, Agree (f a) (g a)) : Agree (x.bind f) (y.bind g) := by
  intro b c hb hc
  obtain ⟨a, ha, hb⟩ := Option.bind_eq_some_iff.1 hb
  obtain ⟨a', ha', hc⟩ := Option.bind_eq_some_iff.1 hc
  obtain rfl := h a a' ha ha'
  exact hf a b c hb hc

protected theorem map {x y : Option α} (h : Agree x y) (f : α → β) :
    Agree (x.map f) (y.map f) := by
  rw [Option.map_eq_bind, Option.map_eq_bind]
  exact h.bind fun a ↦ .refl _

end Agree

/-! ## Faithful reading -/

/-- Values are read back from what is written, and what is alike is read as the same value. -/
structure Faithful (write : α → Json) (read : Json → Option α) (likeness : Likeness) : Prop where
  writable (a : α) : (write a).Writable
  read_write (a : α) : read (write a) = some a
  agree {j k : Json} (h : likeness.Alike j k) : Agree (read j) (read k)

/-- Where only equal values are alike, nothing but reading back is to be shown. -/
theorem Faithful.of_read_write {write : α → Json} {read : Json → Option α}
    (writable : ∀ a, (write a).Writable) (read_write : ∀ a, read (write a) = some a) :
    Faithful write read .exact where
  writable
  read_write
  agree := by
    rintro j _ rfl
    exact .refl _

/-! ## Lists and options -/

section

variable {write : α → Json} {read : Json → Option α} {likeness : Likeness}

theorem mapM_map (h : ∀ a, read (write a) = some a) (as : List α) :
    (as.map write).mapM read = some as := by
  induction as with
  | nil => rfl
  | cons a as ih => rw [List.map_cons, List.mapM_cons, h, ih]; rfl

theorem mem_of_mapM {js : List Json} {as : List α} (h : js.mapM read = some as) (a : α) :
    a ∈ as ↔ ∃ j ∈ js, read j = some a := by
  induction js generalizing as with
  | nil =>
    cases h
    simp
  | cons j js ih =>
    simp only [List.mapM_cons, Option.bind_eq_bind, Option.bind_eq_some_iff, Option.pure_def,
      Option.some.injEq] at h
    obtain ⟨b, hb, bs, hbs, rfl⟩ := h
    simp only [List.mem_cons, ih hbs, exists_eq_or_imp, hb, Option.some.injEq, eq_comm (b := a)]

namespace Faithful

theorem writable_list (h : Faithful write read likeness) (as : List α) :
    (Json.array (as.map write)).Writable := by
  refine .array fun j hj ↦ ?_
  obtain ⟨a, -, rfl⟩ := List.mem_map.1 hj
  exact h.writable a

theorem list (h : Faithful write read likeness) :
    Faithful (fun as ↦ .array (as.map write)) (list? read) .exact :=
  .of_read_write h.writable_list (mapM_map h.read_write)

theorem option (h : Faithful write read likeness) (hnull : ∀ a, write a ≠ .null) :
    Faithful (ofOption write) (option? read) .exact := by
  refine .of_read_write (fun a ↦ ?_) fun a ↦ ?_
  · cases a with
    | none => exact .null
    | some a => exact h.writable a
  · cases a with
    | none => rfl
    | some a =>
      change option? read (write a) = some (some a)
      unfold option?
      split
      next h' => exact absurd h' (hnull a)
      next => rw [h.read_write, Option.map_some]

theorem agree_orDefault (h : Faithful write read likeness) {standard : α} {v w : Option Json}
    (halike : ValueAlike likeness v w) :
    Agree (orDefault standard read v) (orDefault standard read w) := by
  cases v <;> cases w
  · exact .refl _
  · cases halike
  · cases halike
  · exact h.agree halike

/-- The order of items and their repetition do not matter to a set. -/
theorem set [Ord α] [Std.TransOrd α] [Std.LawfulEqOrd α] (h : Faithful write read likeness) :
    Faithful (fun as : OrderedSet α ↦ .array (as.toList.map write))
      (fun j ↦ (j.list? read).map .ofList) .set where
  writable as := h.writable_list as.toList
  read_write as := by
    change Option.map OrderedSet.ofList (List.mapM read (as.toList.map write)) = some as
    rw [mapM_map h.read_write]
    simp
  agree := by
    intro j k halike
    cases halike with
    | refl => exact .refl _
    | @items js ks hitems =>
      intro s t hs ht
      obtain ⟨as, has, rfl⟩ := Option.map_eq_some_iff.1 hs
      obtain ⟨bs, hbs, rfl⟩ := Option.map_eq_some_iff.1 ht
      refine OrderedSet.ext_mem fun a ↦ ?_
      simp only [OrderedSet.mem_ofList, mem_of_mapM has, mem_of_mapM hbs, hitems]

end Faithful

end

/-! ## Records -/

theorem filter_of_mem {ms : List (String × Json)} (hnodup : (ms.map Prod.fst).Nodup)
    {m : String × Json} (hm : m ∈ ms) : ms.filter (·.1 = m.1) = [m] := by
  induction ms with
  | nil => cases hm
  | cons n ms ih =>
    rw [List.map_cons, List.nodup_cons] at hnodup
    rcases List.mem_cons.1 hm with rfl | hm
    · rw [List.filter_cons_of_pos (by simp), List.filter_eq_nil_iff.2]
      intro n hn
      have hne : n.1 ≠ m.1 := fun heq ↦ hnodup.1 (heq ▸ List.mem_map_of_mem hn)
      simpa using hne
    · have hne : n.1 ≠ m.1 := fun heq ↦ hnodup.1 (heq ▸ List.mem_map_of_mem hm)
      rw [List.filter_cons_of_neg (by simpa using hne), ih hnodup.2 hm]

theorem find?_of_mem {ms : List (String × Json)} (hnodup : (ms.map Prod.fst).Nodup)
    {m : String × Json} (hm : m ∈ ms) {member : Member} (hname : m.1 = member.name) :
    member.find? (named ms) = some (some m.2) := by
  have hfilter : (named ms).filter (·.1 = some member.name) = [(some m.1, m.2)] := by
    rw [named, List.filter_map]
    simp only [Function.comp_def, Option.some.injEq, ← hname, filter_of_mem hnodup hm,
      List.map_cons, List.map_nil]
  unfold Member.find?
  rw [hfilter]

/-- The members of a record are found in what is written of it. -/
theorem members?_ofMembers {members : List Member} (hnodup : (members.map Member.name).Nodup)
    {ms : List (String × Json)} (hnames : ms.map Prod.fst = members.map Member.name) :
    (ofMembers ms).members? members = some (ms.map fun m ↦ some m.2) := by
  -- The members left to be found are some of those that are written, so all of these stay in view.
  have hfound : ∀ (members : List Member) (rest : List (String × Json)), rest ⊆ ms →
      rest.map Prod.fst = members.map Member.name →
      members.mapM (·.find? (named ms)) = some (rest.map fun m ↦ some m.2) := by
    intro members
    induction members with
    | nil =>
      intro rest _ hrest
      rw [List.map_eq_nil_iff.1 hrest]
      rfl
    | cons member members ih =>
      intro rest hsub hrest
      obtain ⟨m, rest, rfl, hname, hrest⟩ := List.map_eq_cons_iff.1 hrest
      rw [List.mapM_cons, find?_of_mem (hnames ▸ hnodup) (hsub List.mem_cons_self) hname,
        ih rest (fun n hn ↦ hsub (List.mem_cons_of_mem m hn)) hrest]
      rfl
  have hproper : (named ms).all (·.1.isSome) = true := by simp [named]
  unfold ofMembers members?
  exact (if_pos hproper).trans (hfound members ms (List.Subset.refl ms) hnames)

/-- Records whose values are alike are read alike if what is made of the values is. -/
theorem agree_members? {fields : Fields} {members : List Member}
    (hfields : Describes fields members) {ofValues : List (Option Json) → Option α}
    (hagree : ∀ vs ws, ReadAlike fields vs ws → Agree (ofValues vs) (ofValues ws))
    {j k : Json} (h : ValuesAlike fields j k) :
    Agree ((j.members? members).bind ofValues) ((k.members? members).bind ofValues) := by
  intro a b ha hb
  obtain ⟨vs, hvs, ha⟩ := Option.bind_eq_some_iff.1 ha
  obtain ⟨ws, hws, hb⟩ := Option.bind_eq_some_iff.1 hb
  exact hagree vs ws (readAlike_members? hfields h hvs hws) a b ha hb

/-- What is made of a single member, which has to be given, is read alike. -/
theorem Faithful.agree_single {write : α → Json} {read : Json → Option α} {likeness : Likeness}
    (h : Faithful write read likeness) (make : α → β) {name : String} {j k : Json}
    (halike : ValuesAlike [(name, likeness)] j k) :
    Agree
      ((j.members? [needed name]).bind fun
        | [some v] => (read v).bind fun a ↦ some (make a)
        | _ => none)
      ((k.members? [needed name]).bind fun
        | [some v] => (read v).bind fun a ↦ some (make a)
        | _ => none) := by
  refine agree_members? (by rfl) (fun vs ws hvalues ↦ ?_) halike
  split
  next =>
    split
    next => exact (h.agree hvalues.1).bind fun _ ↦ .refl _
    next => exact .none_right _
  next => exact .of_none _

/-- A part of a record: where its value is in the record, how it is written and how it is read. -/
structure RecordPart (α : Type) where
  name : String
  likeness : Likeness
  Value : Type
  get : α → Value
  write : Value → Json
  read : Option Json → Option Value
  writable (a : Value) : (write a).Writable
  agree {v w : Option Json} (h : ValueAlike likeness v w) : Agree (read v) (read w)

namespace RecordPart

def toJson (a : α) (p : RecordPart α) : Json := p.write (p.get a)

/-- What is read of the value is the part of this record. -/
def IsRead (a : α) (p : RecordPart α) (v : Option Json) : Prop := p.read v = some (p.get a)

def fields (parts : List (RecordPart α)) : Fields := parts.map fun p ↦ (p.name, p.likeness)

/-- Records that are read from values that are alike have the same parts. -/
theorem get_eq {parts : List (RecordPart α)} {vs ws : List (Option Json)} {a b : α}
    (h : ReadAlike (fields parts) vs ws) (ha : List.Forall₂ (IsRead a) parts vs)
    (hb : List.Forall₂ (IsRead b) parts ws) : ∀ p ∈ parts, p.get a = p.get b := by
  induction parts generalizing vs ws with
  | nil => simp
  | cons p parts ih =>
    cases ha with
    | cons hv hvs =>
      cases hb with
      | cons hw hws =>
        obtain ⟨halike, hrest⟩ := h
        exact List.forall_mem_cons.2 ⟨p.agree halike _ _ hv hw, ih hrest hvs hws⟩

end RecordPart

namespace Faithful

variable {write : β → Json} {read : Json → Option β} {likeness : Likeness}

/-- A part that has to be given. -/
def part (h : Faithful write read likeness) (name : String) (get : α → β) : RecordPart α where
  name
  likeness
  Value := β
  get
  write
  read v := v.bind read
  writable := h.writable
  agree {v w} halike := by
    cases v <;> cases w
    · exact .refl _
    · cases halike
    · cases halike
    · exact h.agree halike

/-- A part that may be missing. -/
def partOr (h : Faithful write read likeness) (standard : β) (name : String) (get : α → β) :
    RecordPart α where
  name
  likeness
  Value := β
  get
  write
  read := orDefault standard read
  writable := h.writable
  agree := h.agree_orDefault

@[simp] theorem isRead_part (h : Faithful write read likeness) (name : String) (get : α → β)
    (a : α) (j : Json) : (h.part name get).IsRead a (some j) ↔ read j = some (get a) := Iff.rfl

@[simp] theorem isRead_partOr (h : Faithful write read likeness) (standard : β) (name : String)
    (get : α → β) (a : α) (v : Option Json) :
    (h.partOr standard name get).IsRead a v ↔ orDefault standard read v = some (get a) := Iff.rfl

@[simp] theorem toJson_part (h : Faithful write read likeness) (name : String) (get : α → β)
    (a : α) : (h.part name get).toJson a = write (get a) := rfl

@[simp] theorem toJson_partOr (h : Faithful write read likeness) (standard : β) (name : String)
    (get : α → β) (a : α) : (h.partOr standard name get).toJson a = write (get a) := rfl

end Faithful

/-- How a record is read from the values of its parts: it is read back from what is written of them,
and what it is read from are values of its parts. -/
structure Layout (read : Json → Option α) (parts : List (RecordPart α)) where
  members : List Member
  ofValues : List (Option Json) → Option α
  read_eq (j : Json) : read j = (j.members? members).bind ofValues
  names : parts.map RecordPart.name = members.map Member.name
  nodup : (members.map Member.name).Nodup
  read_back (a : α) : ofValues (parts.map fun p ↦ some (p.toJson a)) = some a
  isRead {vs : List (Option Json)} {a : α} (h : ofValues vs = some a) :
    List.Forall₂ (RecordPart.IsRead a) parts vs

namespace Layout

variable {read : Json → Option α} {parts : List (RecordPart α)}

/-- Records whose values are alike are read alike. -/
theorem agree (l : Layout read parts) {j k : Json} (h : ValuesAlike (RecordPart.fields parts) j k) :
    Agree (read j) (read k) := by
  have hfields : Describes (RecordPart.fields parts) l.members := by
    unfold Describes RecordPart.fields
    rw [List.map_map]
    exact l.names
  rw [l.read_eq, l.read_eq]
  refine agree_members? hfields (fun vs ws halike a b ha hb ↦ ?_) h
  -- Two records with the same parts are written, and so read back, in the same way.
  have hsame := RecordPart.get_eq halike (l.isRead ha) (l.isRead hb)
  have hwritten : (parts.map fun p ↦ some (p.toJson a)) = parts.map fun p ↦ some (p.toJson b) :=
    List.map_congr_left fun p hp ↦ by rw [RecordPart.toJson, RecordPart.toJson, hsame p hp]
  exact Option.some.inj ((l.read_back a).symm.trans (hwritten ▸ l.read_back b))

theorem faithful (l : Layout read parts) {write : α → Json}
    (hwrite : ∀ a, write a = ofMembers (parts.map fun p ↦ (p.name, p.toJson a))) :
    Faithful write read (.record (RecordPart.fields parts)) where
  writable a := by
    rw [hwrite]
    refine .members fun m hm ↦ ?_
    obtain ⟨p, -, rfl⟩ := List.mem_map.1 hm
    exact p.writable _
  read_write a := by
    have hnames : (parts.map fun p ↦ (p.name, p.toJson a)).map Prod.fst =
        l.members.map Member.name := by
      rw [List.map_map]
      exact l.names
    rw [l.read_eq, hwrite, members?_ofMembers l.nodup hnames, Option.bind_some, List.map_map]
    exact l.read_back a
  agree h := l.agree h.valuesAlike

end Layout

/-! ## Tags -/

/-- The tag that is written is found again, and the members after it are the rest. -/
theorem tagged?_ofTagged {tag name : String} {outer : Nat} {ms : List (String × Json)}
    (htag : tag ∉ ms.map Prod.fst) (hsound : (ofMembers ms).isSound = true)
    (hdepth : outer + (ofMembers ms).depth ≤ deepest) :
    (ofTagged tag name ms).tagged? tag outer = some (name, ofMembers ms) := by
  have hothers : ∀ m ∈ named ms, m.1 ≠ some tag := by
    intro m hm heq
    obtain ⟨n, hn, rfl⟩ := List.mem_map.1 hm
    exact htag (Option.some.inj heq ▸ List.mem_map_of_mem hn)
  have hnone : (named ms).filter (·.1 = some tag) = [] :=
    List.filter_eq_nil_iff.2 fun m hm ↦ by simpa using hothers m hm
  have hall : (named ms).filter (·.1 != some tag) = named ms :=
    List.filter_eq_self.2 fun m hm ↦ by simpa using hothers m hm
  have hsound' : (ofTagged tag name ms).isSound = true := by
    simpa [ofTagged, ofMembers, ofString, isSound, isSoundMembers] using hsound
  have hdepth' : (ofTagged tag name ms).depth = (ofMembers ms).depth := by
    simp [ofTagged, ofMembers, ofString, depth, depthMembers]
  have htagged : ofTagged tag name ms = .object ((some tag, .string (some name)) :: named ms) := rfl
  have hrest : ofMembers ms = .object (named ms) := rfl
  unfold tagged?
  rw [hsound', hdepth', decide_eq_false (Nat.not_lt.2 hdepth), htagged, hrest]
  simp [hnone, hall, string?]

/-! ## Texts -/

/-- Reads a value from a text. -/
def decode? (read : Json → Option α) (text : List Char) : Option α := (parse? text).bind read

/-- Without the blanks between their tokens, the texts are of values that are alike. -/
def TextsAlike (likeness : Likeness) (s t : List Char) : Prop :=
  ∃ j k, parse? (withoutBlanks s) = some j ∧ parse? (withoutBlanks t) = some k ∧
    likeness.Alike j k

/-- The text of a value is read as this value, and texts that say the same are read as the same
value, which has one text. -/
structure Lossless (write : α → Json) (read : Json → Option α) (likeness : Likeness) : Prop where
  decode?_compact (a : α) : decode? read (write a).compact = some a
  eq_of_textsAlike {s t : List Char} {a b : α} (h : TextsAlike likeness s t)
    (ha : decode? read s = some a) (hb : decode? read t = some b) :
    a = b ∧ (write a).compact = (write b).compact

theorem Faithful.lossless {write : α → Json} {read : Json → Option α} {likeness : Likeness}
    (h : Faithful write read likeness) : Lossless write read likeness where
  decode?_compact a := by
    rw [decode?, (h.writable a).parse?_compact, Option.bind_some, h.read_write]
  eq_of_textsAlike := by
    rintro s t a b ⟨j, k, hj, hk, halike⟩ ha hb
    obtain ⟨j', hj', ha⟩ := Option.bind_eq_some_iff.1 ha
    obtain ⟨k', hk', hb⟩ := Option.bind_eq_some_iff.1 hb
    obtain rfl : j = j' := Option.some.inj (hj.symm.trans (parse?_withoutBlanks hj'))
    obtain rfl : k = k' := Option.some.inj (hk.symm.trans (parse?_withoutBlanks hk'))
    obtain rfl : a = b := h.agree halike a b ha hb
    exact ⟨rfl, rfl⟩

end BuildQueue.Json
