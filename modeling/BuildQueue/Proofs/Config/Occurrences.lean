import BuildQueue.Proofs.Config.Reading

/-!
# What a document sets

All that counts of a document is the list of its occurrences: the places where it gives a setting a
value, each with the value that counts there. The configuration is a fold over this list that ends
at the first occurrence that is refused.
-/

namespace BuildQueue

/-- The setting that a node inside a queue node is for. -/
def Setting.ofChild? (name : String) : Option Setting :=
  [Setting.strategy, .failover, .pollTimeout, .backoff].find? (·.name = name)

/-- A place where a document sets a setting, with the value that counts there; inside a queue node
it may be missing. -/
structure Occurrence where
  setting : Setting
  value : Option Kdl.Value
  deriving DecidableEq

namespace Kdl.Node

/-- What a node inside a queue node sets. -/
def setting? (node : Node) : Option Occurrence :=
  (Setting.ofChild? node.name).map fun s ↦ ⟨s, node.argument?⟩

/-- What a node sets. There is no order between the two properties of a database node: a `url` is
never refused. -/
def occurrences (node : Node) : List Occurrence :=
  if node.name = "database" then
    [Setting.url, .maxConnections].filterMap fun s ↦
      (node.property? s.name).map fun value ↦ ⟨s, some value⟩
  else if node.name = "queue" then (node.children.getD []).filterMap setting?
  else []

end Kdl.Node

/-- What a document sets, in its order. -/
def occurrences (doc : List Kdl.Node) : List Occurrence := doc.flatMap Kdl.Node.occurrences

namespace Occurrence

/-- What is made of an occurrence: nothing where the setting stays as it is. -/
def read (o : Occurrence) : Except ConfigError (Option o.setting.Carrier) :=
  match o.value with
  | none => .error o.setting.missing
  | some value => o.setting.read value

/-- The value is there and can be taken, or it is that of a `url`, which may be of any type. -/
def Passes (o : Occurrence) : Prop :=
  ∃ value, o.value = some value ∧ (o.setting = .url ∨ (o.setting.read? value).isSome = true)

/-- The value that the occurrence gives to a setting. -/
def valueFor? (s : Setting) (o : Occurrence) : Option s.Carrier :=
  if o.setting = s then o.value.bind s.read? else none

end Occurrence

/-- The values that a setting is given, in the order of the document. -/
def Setting.values (s : Setting) (os : List Occurrence) : List s.Carrier :=
  os.filterMap (Occurrence.valueFor? s)

namespace SystemConfig

/-- Takes over one occurrence. -/
def take (c : SystemConfig) (o : Occurrence) : Except ConfigError SystemConfig :=
  o.read.map fun
    | none => c
    | some a => c.set o.setting a

/-! ## The configuration as a fold over the occurrences -/

theorem applySetting_eq (c : SystemConfig) (child : Kdl.Node) :
    (do return { c with queue := ← c.queue.applySetting child }) =
      child.setting?.toList.foldlM take c := by
  have hsetting (s : Setting) (hs : Setting.ofChild? child.name = some s) :
      child.setting?.toList.foldlM take c = c.take ⟨s, child.argument?⟩ := by
    unfold Kdl.Node.setting?
    rw [hs]
    exact bind_pure _
  unfold QueueConfig.applySetting
  split
  next hname =>
    rw [hsetting .strategy (by rw [hname]; decide)]
    unfold take Occurrence.read
    cases child.argument? with
    | none => rfl
    | some value =>
      simp only [Option.bind_some, Setting.read]
      cases value.string? with
      | none => rfl
      | some name =>
        dsimp only
        cases QueueConfig.strategyOfName name <;> rfl
  next hname =>
    rw [hsetting .failover (by rw [hname]; decide)]
    unfold take Occurrence.read
    cases child.argument? with
    | none => rfl
    | some value =>
      simp only [Option.bind_some, Setting.read]
      cases value.boolean? <;> rfl
  next hname =>
    rw [hsetting .pollTimeout (by rw [hname]; decide)]
    unfold take Occurrence.read Kdl.Node.unsignedArgument
    cases child.argument? with
    | none => rfl
    | some value =>
      simp only [Setting.read]
      cases value.unsigned "poll-timeout-ms" with
      | error e => rfl
      | ok ms =>
        change (ite (ms = 0) _ _ >>= _) = Except.map _ (ite (ms = 0) _ _)
        split <;> rfl
  next hname =>
    rw [hsetting .backoff (by rw [hname]; decide)]
    unfold take Occurrence.read Kdl.Node.unsignedArgument
    cases child.argument? with
    | none => rfl
    | some value =>
      simp only [Setting.read]
      cases value.unsigned "backoff-seconds" <;> rfl
  next hstrategy hfailover htimeout hbackoff =>
    have hnone : child.setting? = none := by
      unfold Kdl.Node.setting? Setting.ofChild?
      simp [Setting.name, Ne.symm hstrategy, Ne.symm hfailover, Ne.symm htimeout, Ne.symm hbackoff]
    rw [hnone]
    rfl

/-- What a queue node sets is taken over child by child. -/
theorem applyQueue_eq (c : SystemConfig) (children : List Kdl.Node) :
    (do return { c with queue := ← children.foldlM QueueConfig.applySetting c.queue }) =
      (children.filterMap Kdl.Node.setting?).foldlM take c := by
  induction children generalizing c with
  | nil => rfl
  | cons child children ih =>
    have hsplit : (child :: children).filterMap Kdl.Node.setting? =
        child.setting?.toList ++ children.filterMap Kdl.Node.setting? := by
      rw [List.filterMap_cons]
      cases child.setting? <;> rfl
    rw [hsplit, List.foldlM_append, ← applySetting_eq, List.foldlM_cons]
    cases c.queue.applySetting child with
    | error e => rfl
    | ok queue => exact ih { c with queue }

/-- A `url` of another type leaves the one that stands. -/
theorem take_url (c : SystemConfig) (value : Kdl.Value) :
    c.take ⟨.url, some value⟩ = .ok (c.set .url (value.string?.getD c.database.url)) := by
  unfold take Occurrence.read
  simp only [Setting.read]
  cases value.string? <;> rfl

theorem take_maxConnections (c : SystemConfig) (value : Kdl.Value) :
    c.take ⟨.maxConnections, some value⟩ = do
      let k ← DatabaseConfig.connections (← value.unsigned "max-connections")
      return c.set .maxConnections k := by
  unfold take Occurrence.read
  simp only [Setting.read]
  cases value.unsigned "max-connections" with
  | error e => rfl
  | ok n =>
    change Except.map _ (DatabaseConfig.connections n >>= _) = DatabaseConfig.connections n >>= _
    cases DatabaseConfig.connections n <;> rfl

theorem applyDatabase_eq (c : SystemConfig) (node : Kdl.Node) :
    (do return { c with database := ← c.database.apply node }) =
      ([Setting.url, .maxConnections].filterMap fun s ↦
        (node.property? s.name).map fun value ↦ (⟨s, some value⟩ : Occurrence)).foldlM take c := by
  have hurl : node.property? (Setting.name .url) = node.property? "url" := rfl
  have hmax : node.property? (Setting.name .maxConnections) =
      node.property? "max-connections" := rfl
  unfold DatabaseConfig.apply
  simp only [List.filterMap_cons, List.filterMap_nil, hurl, hmax]
  cases node.property? "url" <;> cases node.property? "max-connections" with
  | none =>
    simp only [Option.map_none, Option.map_some, List.foldlM_cons, take_url]
    rfl
  | some value =>
    simp only [Option.map_none, Option.map_some, List.foldlM_cons, take_url, take_maxConnections]
    cases value.unsigned "max-connections" with
    | error e => rfl
    | ok n =>
      dsimp only [Bind.bind, Except.bind]
      cases DatabaseConfig.connections n <;> rfl

theorem applyNode_eq (c : SystemConfig) (node : Kdl.Node) :
    c.applyNode node = node.occurrences.foldlM take c := by
  unfold applyNode Kdl.Node.occurrences
  split
  next hname =>
    rw [if_pos hname]
    exact applyDatabase_eq c node
  next hname =>
    rw [if_neg (by rw [hname]; decide), if_pos hname]
    exact applyQueue_eq c _
  next hdatabase hqueue =>
    rw [if_neg hdatabase, if_neg hqueue]
    rfl

/-- Of a document only its occurrences count. -/
theorem apply_eq (c : SystemConfig) (doc : List Kdl.Node) :
    c.apply doc = (occurrences doc).foldlM take c := by
  unfold apply occurrences
  induction doc generalizing c with
  | nil => rfl
  | cons node doc ih =>
    rw [List.foldlM_cons, List.flatMap_cons, List.foldlM_append, applyNode_eq]
    congr 1
    funext c'
    exact ih c'

end SystemConfig

/-! ## The first refusal -/

namespace Occurrence

variable {o : Occurrence}

theorem read_of_passes (h : o.Passes) : o.read = .ok (o.value.bind o.setting.read?) := by
  obtain ⟨s, value⟩ := o
  obtain ⟨value, rfl, hread⟩ := h
  obtain ⟨why, heq⟩ := s.read_eq value
  unfold read
  simp only [heq, Option.bind_some]
  cases hs : s.read? value with
  | some a => rfl
  | none =>
    have hurl : s = .url := by simpa [hs] using hread
    exact if_pos hurl

theorem read_of_not_passes (h : ¬o.Passes) : ∃ e, o.read = .error e := by
  obtain ⟨s, _ | value⟩ := o
  · exact ⟨_, rfl⟩
  · obtain ⟨why, heq⟩ := s.read_eq value
    have hurl : s ≠ .url := fun hurl ↦ h ⟨value, rfl, .inl hurl⟩
    have hread : s.read? value = none := by
      rw [← Option.not_isSome_iff_eq_none]
      exact fun hsome ↦ h ⟨value, rfl, .inr hsome⟩
    unfold read
    simp only [heq, hread, if_neg hurl]
    split <;> exact ⟨_, rfl⟩

theorem passes_iff : o.Passes ↔ ∀ e, o.read ≠ .error e := by
  constructor
  · intro h e
    rw [read_of_passes h]
    simp
  · intro h
    refine Classical.byContradiction fun hnot ↦ ?_
    obtain ⟨e, he⟩ := read_of_not_passes hnot
    exact h e he

end Occurrence

namespace SystemConfig

variable {c c' : SystemConfig} {o : Occurrence} {os : List Occurrence} {e : ConfigError}

/-- The configuration after an occurrence that passes. -/
def update (c : SystemConfig) (o : Occurrence) : SystemConfig :=
  match o.value.bind o.setting.read? with
  | none => c
  | some a => c.set o.setting a

theorem take_of_passes (h : o.Passes) (c : SystemConfig) : c.take o = .ok (c.update o) := by
  unfold take update
  rw [Occurrence.read_of_passes h]
  cases o.value.bind o.setting.read? <;> rfl

theorem take_eq_error_iff : c.take o = .error e ↔ o.read = .error e := by
  unfold take
  cases o.read <;> simp [Except.map]

/-- A fold that may fail ends at the first failure, and only there. -/
theorem foldlM_eq_error_iff {σ α : Type} {f : σ → α → Except ConfigError σ} {xs : List α} {a : σ} :
    xs.foldlM f a = .error e ↔ ∃ before x after b,
      xs = before ++ x :: after ∧ before.foldlM f a = .ok b ∧ f b x = .error e := by
  induction xs generalizing a with
  | nil => simp [pure, Except.pure]
  | cons x xs ih =>
    rw [List.foldlM_cons]
    cases hx : f a x with
    | error e' =>
      constructor
      · intro h
        obtain rfl : e' = e := Except.error.inj h
        exact ⟨[], x, xs, a, rfl, rfl, hx⟩
      · rintro ⟨_ | ⟨y, before⟩, x', after, b, hsplit, hbefore, hx'⟩
        · obtain ⟨rfl, -⟩ := List.cons.inj hsplit
          obtain rfl : a = b := Except.ok.inj hbefore
          exact hx.symm.trans hx'
        · obtain ⟨rfl, -⟩ := List.cons.inj hsplit
          rw [List.foldlM_cons, hx] at hbefore
          cases hbefore
    | ok a' =>
      refine Iff.trans ih ?_
      constructor
      · rintro ⟨before, x', after, b, rfl, hbefore, hx'⟩
        refine ⟨x :: before, x', after, b, rfl, ?_, hx'⟩
        rw [List.foldlM_cons, hx]
        exact hbefore
      · rintro ⟨_ | ⟨y, before⟩, x', after, b, hsplit, hbefore, hx'⟩
        · obtain ⟨rfl, -⟩ := List.cons.inj hsplit
          obtain rfl : a = b := Except.ok.inj hbefore
          rw [hx] at hx'
          cases hx'
        · obtain ⟨rfl, rfl⟩ := List.cons.inj hsplit
          rw [List.foldlM_cons, hx] at hbefore
          exact ⟨before, x', after, b, rfl, hbefore, hx'⟩

theorem foldlM_take_of_passes (h : ∀ o ∈ os, o.Passes) (c : SystemConfig) :
    os.foldlM take c = .ok (os.foldl update c) := by
  induction os generalizing c with
  | nil => rfl
  | cons o os ih =>
    rw [List.foldlM_cons, take_of_passes (h o List.mem_cons_self)]
    exact ih (fun o' ho' ↦ h o' (List.mem_cons_of_mem o ho')) _

theorem passes_of_foldlM_take (h : os.foldlM take c = .ok c') : ∀ o ∈ os, o.Passes := by
  induction os generalizing c with
  | nil => simp
  | cons o os ih =>
    rw [List.foldlM_cons] at h
    cases ho : c.take o with
    | error e =>
      rw [ho] at h
      cases h
    | ok next =>
      rw [ho] at h
      have hpasses : o.Passes := by
        rw [Occurrence.passes_iff]
        intro e he
        rw [take_eq_error_iff.2 he] at ho
        cases ho
      exact List.forall_mem_cons.2 ⟨hpasses, ih h⟩

/-- A document is accepted just if every occurrence passes, and then all of them count. -/
theorem apply_eq_ok_iff {doc : List Kdl.Node} :
    c.apply doc = .ok c' ↔
      (∀ o ∈ occurrences doc, o.Passes) ∧ (occurrences doc).foldl update c = c' := by
  rw [apply_eq]
  constructor
  · intro h
    have hpasses := passes_of_foldlM_take h
    rw [foldlM_take_of_passes hpasses] at h
    exact ⟨hpasses, Except.ok.inj h⟩
  · rintro ⟨hpasses, rfl⟩
    exact foldlM_take_of_passes hpasses c

/-- A document is refused just with the error of its first occurrence that does not pass. -/
theorem apply_eq_error_iff {doc : List Kdl.Node} :
    c.apply doc = .error e ↔ ∃ before x after, occurrences doc = before ++ x :: after ∧
      (∀ o ∈ before, o.Passes) ∧ x.read = .error e := by
  rw [apply_eq, foldlM_eq_error_iff]
  constructor
  · rintro ⟨before, x, after, b, hsplit, hbefore, hx⟩
    exact ⟨before, x, after, hsplit, passes_of_foldlM_take hbefore, take_eq_error_iff.1 hx⟩
  · rintro ⟨before, x, after, hsplit, hbefore, hx⟩
    exact ⟨before, x, after, _, hsplit, foldlM_take_of_passes hbefore c, take_eq_error_iff.2 hx⟩

/-! ## The values of the settings -/

theorem get_update (c : SystemConfig) (o : Occurrence) (s : Setting) :
    (c.update o).get s = (o.valueFor? s).getD (c.get s) := by
  unfold update Occurrence.valueFor?
  by_cases hs : o.setting = s
  · subst hs
    rw [if_pos rfl]
    cases o.value.bind o.setting.read? with
    | none => rfl
    | some a => exact get_set_self a
  · rw [if_neg hs]
    cases o.value.bind o.setting.read? with
    | none => rfl
    | some a => exact get_set_of_ne a (Ne.symm hs)

/-- Of the values that a setting is given the last one counts. -/
theorem get_foldl_update (c : SystemConfig) (os : List Occurrence) (s : Setting) :
    (os.foldl update c).get s = (s.values os).getLast?.getD (c.get s) := by
  induction os generalizing c with
  | nil => rfl
  | cons o os ih =>
    have hsplit : s.values (o :: os) = (o.valueFor? s).toList ++ s.values os := by
      unfold Setting.values
      rw [List.filterMap_cons]
      cases o.valueFor? s <;> rfl
    rw [List.foldl_cons, ih, get_update, hsplit, List.getLast?_append]
    cases (s.values os).getLast? <;> cases o.valueFor? s <;> rfl

end SystemConfig

end BuildQueue
