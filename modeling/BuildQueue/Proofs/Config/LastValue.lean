import BuildQueue.Proofs.Config.Occurrences
import Mathlib.Data.List.Basic

/-!
# The last value counts

A configuration is read as a fold: nodes are taken over one after the other, and the first one that
is invalid on its own is reported, whatever comes after it. In an accepted document every setting
has the last of its values, so nodes that set nothing, and the order of nodes that set different
settings, do not matter. Numbers are held exactly over their whole ranges.
-/

namespace BuildQueue

/-! ## Ranges -/

namespace Setting

variable {value : Kdl.Value}

theorem read?_maxConnections_iff {k : UInt32} :
    maxConnections.read? value = some k ↔ value = .integer k.toNat ∧ 1 ≤ k.toNat := by
  have hlt : k.toNat < 4294967296 := k.toNat_lt_size
  simp only [read?, Option.map_eq_some_iff, Kdl.Value.within?_eq_some_iff (r := ⟨1, 4294967295⟩)
    (by decide), IntegerRange.contains_iff]
  constructor
  · rintro ⟨n, ⟨rfl, hlow, hhigh⟩, rfl⟩
    have hn : (UInt32.ofNat n).toNat = n := by
      rw [UInt32.toNat_ofNat']
      omega
    rw [hn]
    exact ⟨rfl, by omega⟩
  · rintro ⟨rfl, hlow⟩
    exact ⟨k.toNat, ⟨rfl, by omega, by omega⟩, UInt32.ofNat_toNat⟩

/-- Numbers of 64 bits from some lowest one on are all taken, each for itself. -/
theorem within?_map_ofNat_iff {α : Type} {lowest : Int} (hlowest : 0 ≤ lowest) {f : UInt64 → α}
    {a : α} : (value.within? ⟨lowest, 18446744073709551615⟩).map (fun n ↦ f (.ofNat n)) = some a ↔
      ∃ n : UInt64, value = .integer n.toNat ∧ lowest ≤ n.toNat ∧ f n = a := by
  simp only [Option.map_eq_some_iff, Kdl.Value.within?_eq_some_iff
    (r := ⟨lowest, 18446744073709551615⟩) hlowest, IntegerRange.contains_iff]
  constructor
  · rintro ⟨n, ⟨rfl, hlow, hhigh⟩, ha⟩
    have hn : (UInt64.ofNat n).toNat = n := by
      rw [UInt64.toNat_ofNat']
      omega
    exact ⟨.ofNat n, by rw [hn], by rwa [hn], ha⟩
  · rintro ⟨n, rfl, hlow, ha⟩
    have hlt : n.toNat < 18446744073709551616 := n.toNat_lt_size
    exact ⟨n.toNat, ⟨rfl, hlow, by omega⟩, by rwa [UInt64.ofNat_toNat]⟩

theorem read?_pollTimeout_iff {d : Duration} :
    pollTimeout.read? value = some d ↔
      ∃ ms : UInt64, value = .integer ms.toNat ∧ (1 : Int) ≤ ms.toNat ∧ .ofMillis ms = d :=
  within?_map_ofNat_iff (by decide)

theorem read?_backoff_iff {d : Duration} :
    backoff.read? value = some d ↔
      ∃ s : UInt64, value = .integer s.toNat ∧ (0 : Int) ≤ s.toNat ∧ .ofSeconds s = d :=
  within?_map_ofNat_iff (by decide)

variable {n : Nat}

theorem exists_read?_maxConnections (hlow : 1 ≤ n) (hhigh : n < UInt32.size) :
    ∃ k, maxConnections.read? (.integer n) = some k ∧ k.toNat = n := by
  have hn : (UInt32.ofNat n).toNat = n := UInt32.toNat_ofNat_of_lt' hhigh
  exact ⟨.ofNat n, read?_maxConnections_iff.2 ⟨by rw [hn], by rwa [hn]⟩, hn⟩

theorem exists_read?_pollTimeout (hlow : 1 ≤ n) (hhigh : n < UInt64.size) :
    ∃ d, pollTimeout.read? (.integer n) = some d ∧ d.nanos = n * 1000000 := by
  have hn : (UInt64.ofNat n).toNat = n := UInt64.toNat_ofNat_of_lt' hhigh
  refine ⟨.ofMillis (.ofNat n), read?_pollTimeout_iff.2 ⟨.ofNat n, ?_, ?_, rfl⟩, ?_⟩
  · rw [hn]
  · rw [hn]
    omega
  · rw [Duration.nanos_ofMillis, hn]

theorem exists_read?_backoff (hhigh : n < UInt64.size) :
    ∃ d, backoff.read? (.integer n) = some d ∧ d.nanos = n * 1000000000 := by
  have hn : (UInt64.ofNat n).toNat = n := UInt64.toNat_ofNat_of_lt' hhigh
  refine ⟨.ofSeconds (.ofNat n), read?_backoff_iff.2 ⟨.ofNat n, ?_, ?_, rfl⟩, ?_⟩
  · rw [hn]
  · omega
  · rw [Duration.nanos_ofSeconds, hn]

end Setting

variable {doc d₁ d₂ : List Kdl.Node} {c : SystemConfig}

/-! ## Nodes and their order -/

theorem occurrences_append (d₁ d₂ : List Kdl.Node) :
    occurrences (d₁ ++ d₂) = occurrences d₁ ++ occurrences d₂ := List.flatMap_append

namespace Setting

theorem values_append (s : Setting) (os₁ os₂ : List Occurrence) :
    s.values (os₁ ++ os₂) = s.values os₁ ++ s.values os₂ := List.filterMap_append

/-- Different nodes inside a queue node set different settings. -/
theorem values_of_name_ne {a b : Kdl.Node} (h : a.name ≠ b.name) (s : Setting) :
    s.values a.setting?.toList = [] ∨ s.values b.setting?.toList = [] := by
  -- Each of the two sets at most the setting that its name is for.
  have hname (node : Kdl.Node) (hne : s.values node.setting?.toList ≠ []) :
      node.name = s.name := by
    unfold Kdl.Node.setting? at hne
    cases hfound : ofChild? node.name with
    | none => simp [hfound, values] at hne
    | some s' =>
      have hs' : s'.name = node.name := by simpa using List.find?_some hfound
      have hs : s' = s := by
        by_contra hother
        simp [hfound, values, Occurrence.valueFor?, hother] at hne
      rw [← hs', hs]
  by_contra hboth
  rw [not_or] at hboth
  exact h ((hname a hboth.1).trans (hname b hboth.2).symm)

end Setting

namespace Kdl.Node

theorem occurrences_of_unrecognised {node : Node} (hdatabase : node.name ≠ "database")
    (hqueue : node.name ≠ "queue") : node.occurrences = [] := by
  unfold occurrences
  rw [if_neg hdatabase, if_neg hqueue]

theorem setting?_of_unrecognised {child : Node}
    (h : child.name ∉ ["strategy", "failover", "poll-timeout-ms", "backoff-seconds"]) :
    child.setting? = none := by
  unfold setting?
  rw [Option.map_eq_none_iff, Setting.ofChild?, List.find?_eq_none]
  intro s hs hname
  have hmem : s.name ∈ [Setting.strategy, .failover, .pollTimeout, .backoff].map Setting.name :=
    List.mem_map_of_mem hs
  rw [of_decide_eq_true hname] at hmem
  exact h hmem

def withChildren (node : Node) (children : List Node) : Node :=
  { node with children := some children }

/-- The nodes inside a node either all count, or none of them does. -/
theorem occurrences_withChildren (node : Node) :
    (∀ children, (node.withChildren children).occurrences = children.filterMap setting?) ∨
    ∀ children children', (node.withChildren children).occurrences =
      (node.withChildren children').occurrences := by
  unfold occurrences withChildren
  by_cases hdatabase : node.name = "database"
  · right
    intro children children'
    simp only [hdatabase, if_true]
    rfl
  · by_cases hqueue : node.name = "queue"
    · left
      intro children
      simp [hqueue]
    · right
      intro children children'
      simp only [if_neg hdatabase, if_neg hqueue]

end Kdl.Node

namespace SystemConfig

/-- Only what a document sets counts. -/
theorem ofNodes_congr (h : occurrences d₁ = occurrences d₂) : ofNodes d₁ = ofNodes d₂ := by
  unfold ofNodes
  rw [apply_eq, apply_eq, h]

theorem ofNodes_eq_ok_iff : ofNodes doc = .ok c ↔ (∀ o ∈ occurrences doc, o.Passes) ∧
    ∀ s : Setting, c.get s = (s.values (occurrences doc)).getLast?.getD (standard.get s) := by
  unfold ofNodes
  rw [apply_eq_ok_iff]
  apply and_congr_right
  intro _
  constructor
  · rintro rfl
    exact get_foldl_update standard _
  · intro h
    apply eq_of_get
    intro s
    rw [get_foldl_update, h]

/-- What two runs of occurrences set may change places if no setting has values in both. -/
theorem ofNodes_eq_ok_of_swap {before os₁ os₂ after : List Occurrence}
    (h₁ : occurrences d₁ = before ++ (os₁ ++ os₂) ++ after)
    (h₂ : occurrences d₂ = before ++ (os₂ ++ os₁) ++ after)
    (hother : ∀ s : Setting, s.values os₁ = [] ∨ s.values os₂ = []) :
    ofNodes d₁ = .ok c ↔ ofNodes d₂ = .ok c := by
  have hvalues (s : Setting) : s.values (occurrences d₁) = s.values (occurrences d₂) := by
    rw [h₁, h₂]
    simp only [Setting.values_append]
    rcases hother s with hnone | hnone <;> simp [hnone]
  have hmem (o : Occurrence) : o ∈ occurrences d₁ ↔ o ∈ occurrences d₂ := by
    rw [h₁, h₂]
    simp only [List.mem_append, Or.comm]
  simp only [ofNodes_eq_ok_iff, hvalues, hmem]

theorem ofNodes_singleton_eq_error_iff {node : Kdl.Node} {e : ConfigError} :
    ofNodes [node] = .error e ↔ c.applyNode node = .error e := by
  have happly (c : SystemConfig) : c.apply [node] = c.applyNode node := bind_pure _
  unfold ofNodes
  rw [← happly, apply_eq_error_iff, apply_eq_error_iff]

theorem ofNodes_eq_error_iff {e : ConfigError} :
    ofNodes doc = .error e ↔ ∃ before node after c, doc = before ++ node :: after ∧
      ofNodes before = .ok c ∧ ofNodes [node] = .error e := by
  unfold ofNodes
  constructor
  · intro h
    obtain ⟨before, node, after, c, hsplit, hbefore, hnode⟩ := foldlM_eq_error_iff.1 h
    exact ⟨before, node, after, c, hsplit, hbefore, ofNodes_singleton_eq_error_iff.2 hnode⟩
  · rintro ⟨before, node, after, c, hsplit, hbefore, hnode⟩
    exact foldlM_eq_error_iff.2
      ⟨before, node, after, c, hsplit, hbefore, ofNodes_singleton_eq_error_iff.1 hnode⟩

/-- A value that can be taken is taken over, and stands if no other comes after it. -/
theorem exists_ofNodes_of_last {before after : List Occurrence} {s : Setting} {value : Kdl.Value}
    {a : s.Carrier} (hsplit : occurrences doc = before ++ ⟨s, some value⟩ :: after)
    (hothers : ∀ o ∈ before ++ after, o.Passes) (hlast : ∀ o ∈ after, o.setting ≠ s)
    (hread : s.read? value = some a) : ∃ c, ofNodes doc = .ok c ∧ c.get s = a := by
  have hpasses (o : Occurrence) (ho : o ∈ occurrences doc) : o.Passes := by
    rw [hsplit, List.mem_append, List.mem_cons] at ho
    rcases ho with ho | rfl | ho
    · exact hothers o (List.mem_append_left _ ho)
    · exact ⟨value, rfl, .inr (by rw [hread]; rfl)⟩
    · exact hothers o (List.mem_append_right _ ho)
  have hafter : s.values after = [] :=
    List.filterMap_eq_nil_iff.2 fun o ho ↦ if_neg (hlast o ho)
  have hvalues : s.values (occurrences doc) = s.values before ++ [a] := by
    have hone : s.values [⟨s, some value⟩] = [a] := by
      simp [Setting.values, Occurrence.valueFor?, hread]
    rw [hsplit, List.append_cons, Setting.values_append, Setting.values_append, hone, hafter,
      List.append_nil]
  refine ⟨_, apply_eq_ok_iff.2 ⟨hpasses, rfl⟩, ?_⟩
  rw [get_foldl_update, hvalues, List.getLast?_concat]
  rfl

/-- A setting has its default or what one of the values stands for. -/
theorem get_of_ofNodes (h : ofNodes doc = .ok c) (s : Setting) :
    c.get s = standard.get s ∨ ∃ value, s.read? value = some (c.get s) := by
  rw [(ofNodes_eq_ok_iff.1 h).2 s]
  cases hlast : (s.values (occurrences doc)).getLast? with
  | none => exact .inl rfl
  | some a =>
    obtain ⟨o, -, ho⟩ := List.mem_filterMap.1 (List.mem_of_getLast? hlast)
    right
    unfold Occurrence.valueFor? at ho
    split at ho
    · obtain ⟨value, -, hvalue⟩ := Option.bind_eq_some_iff.1 ho
      exact ⟨value, hvalue⟩
    · cases ho

/-- The numbers of a configuration that was read are in their ranges. -/
theorem ranges_of_ofNodes (h : ofNodes doc = .ok c) :
    (1 ≤ c.database.maxConnections.toNat ∧ c.database.maxConnections.toNat < UInt32.size) ∧
    (∃ ms, 1 ≤ ms ∧ ms < UInt64.size ∧ c.queue.pollTimeout.nanos = ms * 1000000) ∧
    ∃ s, s < UInt64.size ∧ c.queue.backoff.nanos = s * 1000000000 := by
  refine ⟨?_, ?_, ?_⟩
  · refine ⟨?_, c.database.maxConnections.toNat_lt_size⟩
    rcases get_of_ofNodes h .maxConnections with hdefault | ⟨value, hvalue⟩
    · change c.database.maxConnections = 10 at hdefault
      rw [hdefault]
      decide
    · exact (Setting.read?_maxConnections_iff.1 hvalue).2
  · rcases get_of_ofNodes h .pollTimeout with hdefault | ⟨value, hvalue⟩
    · change c.queue.pollTimeout = .ofSeconds 5 at hdefault
      rw [hdefault]
      exact ⟨5000, by decide, by decide, rfl⟩
    · obtain ⟨ms, -, hle, hms⟩ := Setting.read?_pollTimeout_iff.1 hvalue
      change Duration.ofMillis ms = c.queue.pollTimeout at hms
      rw [← hms]
      exact ⟨ms.toNat, by omega, ms.toNat_lt_size, rfl⟩
  · rcases get_of_ofNodes h .backoff with hdefault | ⟨value, hvalue⟩
    · change c.queue.backoff = .zero at hdefault
      rw [hdefault]
      exact ⟨0, by decide, rfl⟩
    · obtain ⟨s, -, -, hs⟩ := Setting.read?_backoff_iff.1 hvalue
      change Duration.ofSeconds s = c.queue.backoff at hs
      rw [← hs]
      exact ⟨s.toNat, s.toNat_lt_size, rfl⟩

/-- Inside a node, too, what sets nothing may be left out. -/
theorem ofNodes_child (before : List Kdl.Node) (node : Kdl.Node) (after xs : List Kdl.Node)
    {child : Kdl.Node} (ys : List Kdl.Node) (hchild : child.setting? = none) :
    ofNodes (before ++ node.withChildren (xs ++ child :: ys) :: after) =
      ofNodes (before ++ node.withChildren (xs ++ ys) :: after) := by
  have hnode : (node.withChildren (xs ++ child :: ys)).occurrences =
      (node.withChildren (xs ++ ys)).occurrences := by
    rcases node.occurrences_withChildren with hcount | hnothing
    · rw [hcount, hcount, List.filterMap_append, List.filterMap_append, List.filterMap_cons, hchild]
    · exact hnothing _ _
  apply ofNodes_congr
  unfold occurrences
  rw [List.flatMap_append, List.flatMap_append, List.flatMap_cons, List.flatMap_cons, hnode]

/-- Inside a node, too, what sets different settings may change places. -/
theorem ofNodes_children_swap (before : List Kdl.Node) (node : Kdl.Node) (after xs : List Kdl.Node)
    {a b : Kdl.Node} (ys : List Kdl.Node) (hne : a.name ≠ b.name) :
    ofNodes (before ++ node.withChildren (xs ++ a :: b :: ys) :: after) = .ok c ↔
      ofNodes (before ++ node.withChildren (xs ++ b :: a :: ys) :: after) = .ok c := by
  rcases node.occurrences_withChildren with hcount | hnothing
  · have hsplit (a b : Kdl.Node) :
        occurrences (before ++ node.withChildren (xs ++ a :: b :: ys) :: after) =
          (occurrences before ++ xs.filterMap Kdl.Node.setting?) ++
            (a.setting?.toList ++ b.setting?.toList) ++
              (ys.filterMap Kdl.Node.setting? ++ occurrences after) := by
      rw [occurrences_append]
      change _ ++ ((node.withChildren _).occurrences ++ occurrences after) = _
      rw [hcount]
      cases ha : a.setting? <;> cases hb : b.setting? <;> simp [ha, hb]
    exact ofNodes_eq_ok_of_swap (hsplit a b) (hsplit b a) (Setting.values_of_name_ne hne)
  · have hsame : occurrences (before ++ node.withChildren (xs ++ a :: b :: ys) :: after) =
        occurrences (before ++ node.withChildren (xs ++ b :: a :: ys) :: after) := by
      unfold occurrences
      rw [List.flatMap_append, List.flatMap_append, List.flatMap_cons, List.flatMap_cons,
        hnothing (xs ++ a :: b :: ys) (xs ++ b :: a :: ys)]
    rw [ofNodes_congr hsame]

/-- Reading a document goes on from what the part before came to, and the first node that is invalid
on its own is reported. In an accepted document each setting has its last value or, without one, its
default; nodes that set nothing may be left out and nodes that set different settings may change
places, at the top and inside other nodes. The numbers of an accepted document are in their ranges,
and every number of a range is accepted and held as it is. -/
theorem last_value_counts :
    (∀ d₁ d₂ : List Kdl.Node, ofNodes (d₁ ++ d₂) = ofNodes d₁ >>= fun c ↦ c.apply d₂) ∧
    (∀ (doc : List Kdl.Node) (e : ConfigError), ofNodes doc = .error e ↔
      ∃ before node after c, doc = before ++ node :: after ∧ ofNodes before = .ok c ∧
        ofNodes [node] = .error e) ∧
    (∀ (doc : List Kdl.Node) (c : SystemConfig), ofNodes doc = .ok c → ∀ s : Setting,
      c.get s = (s.values (occurrences doc)).getLast?.getD (standard.get s)) ∧
    (∀ (before : List Kdl.Node) (node : Kdl.Node) (after : List Kdl.Node),
      node.name ≠ "database" → node.name ≠ "queue" →
      ofNodes (before ++ node :: after) = ofNodes (before ++ after)) ∧
    (∀ (before : List Kdl.Node) (node : Kdl.Node) (after xs : List Kdl.Node) (child : Kdl.Node)
      (ys : List Kdl.Node),
      child.name ∉ ["strategy", "failover", "poll-timeout-ms", "backoff-seconds"] →
      ofNodes (before ++ node.withChildren (xs ++ child :: ys) :: after) =
        ofNodes (before ++ node.withChildren (xs ++ ys) :: after)) ∧
    (∀ (before : List Kdl.Node) (a b : Kdl.Node) (after : List Kdl.Node) (c : SystemConfig),
      (∀ s : Setting, s.values a.occurrences = [] ∨ s.values b.occurrences = []) →
      (ofNodes (before ++ a :: b :: after) = .ok c ↔
        ofNodes (before ++ b :: a :: after) = .ok c)) ∧
    (∀ (before : List Kdl.Node) (node : Kdl.Node) (after xs : List Kdl.Node) (a b : Kdl.Node)
      (ys : List Kdl.Node) (c : SystemConfig), a.name ≠ b.name →
      (ofNodes (before ++ node.withChildren (xs ++ a :: b :: ys) :: after) = .ok c ↔
        ofNodes (before ++ node.withChildren (xs ++ b :: a :: ys) :: after) = .ok c)) ∧
    (∀ (doc : List Kdl.Node) (c : SystemConfig), ofNodes doc = .ok c →
      (1 ≤ c.database.maxConnections.toNat ∧ c.database.maxConnections.toNat < UInt32.size) ∧
      (∃ ms, 1 ≤ ms ∧ ms < UInt64.size ∧ c.queue.pollTimeout.nanos = ms * 1000000) ∧
      ∃ s, s < UInt64.size ∧ c.queue.backoff.nanos = s * 1000000000) ∧
    ∀ (doc : List Kdl.Node) (before : List Occurrence) (s : Setting) (n : Nat)
      (after : List Occurrence),
      occurrences doc = before ++ ⟨s, some (.integer n)⟩ :: after →
      (∀ o ∈ before ++ after, o.Passes) → (∀ o ∈ after, o.setting ≠ s) →
      (s = .maxConnections → 1 ≤ n → n < UInt32.size →
        ∃ c, ofNodes doc = .ok c ∧ c.database.maxConnections.toNat = n) ∧
      (s = .pollTimeout → 1 ≤ n → n < UInt64.size →
        ∃ c, ofNodes doc = .ok c ∧ c.queue.pollTimeout.nanos = n * 1000000) ∧
      (s = .backoff → n < UInt64.size →
        ∃ c, ofNodes doc = .ok c ∧ c.queue.backoff.nanos = n * 1000000000) := by
  refine ⟨fun d₁ d₂ ↦ List.foldlM_append, fun doc e ↦ ofNodes_eq_error_iff,
    fun doc c h ↦ (ofNodes_eq_ok_iff.1 h).2, ?_, ?_, ?_, ?_, fun doc c ↦ ranges_of_ofNodes, ?_⟩
  · intro before node after hdatabase hqueue
    apply ofNodes_congr
    unfold occurrences
    rw [List.flatMap_append, List.flatMap_append, List.flatMap_cons,
      Kdl.Node.occurrences_of_unrecognised hdatabase hqueue, List.nil_append]
  · intro before node after xs child ys hchild
    exact ofNodes_child before node after xs ys (Kdl.Node.setting?_of_unrecognised hchild)
  · intro before a b after c hother
    have hsplit (a b : Kdl.Node) : occurrences (before ++ a :: b :: after) =
        occurrences before ++ (a.occurrences ++ b.occurrences) ++ occurrences after := by
      simp [occurrences]
    exact ofNodes_eq_ok_of_swap (hsplit a b) (hsplit b a) hother
  · intro before node after xs a b ys c hne
    exact ofNodes_children_swap before node after xs ys hne
  · intro doc before s n after hsplit hothers hlast
    refine ⟨?_, ?_, ?_⟩
    · rintro rfl hlow hhigh
      obtain ⟨k, hread, hk⟩ := Setting.exists_read?_maxConnections hlow hhigh
      obtain ⟨c, hc, rfl⟩ := exists_ofNodes_of_last hsplit hothers hlast hread
      exact ⟨c, hc, hk⟩
    · rintro rfl hlow hhigh
      obtain ⟨d, hread, hd⟩ := Setting.exists_read?_pollTimeout hlow hhigh
      obtain ⟨c, hc, rfl⟩ := exists_ofNodes_of_last hsplit hothers hlast hread
      exact ⟨c, hc, hd⟩
    · rintro rfl hhigh
      obtain ⟨d, hread, hd⟩ := Setting.exists_read?_backoff hhigh
      obtain ⟨c, hc, rfl⟩ := exists_ofNodes_of_last hsplit hothers hlast hread
      exact ⟨c, hc, hd⟩

/-- A node that sets the number of connections. -/
def connections (n : Int) : Kdl.Node := ⟨"database", [⟨some "max-connections", .integer n⟩], none⟩

/-- A node with one number. -/
def numbered (name : String) (n : Int) : Kdl.Node := ⟨name, [⟨none, .integer n⟩], none⟩

/-- A number of connections, a queue and another number, which is the highest there is. -/
def twice (children : List Kdl.Node) : List Kdl.Node :=
  [connections 7, Kdl.Node.withChildren ⟨"queue", [], none⟩ children, connections 4294967295]

/-- The higher number counts, wherever the queue stands; a number that is refused is reported though
others follow. -/
theorem last_value_counts_twice :
    let timeout := numbered "poll-timeout-ms" 250
    let backoff := numbered "backoff-seconds" 3
    let other := numbered "retries" 5
    (∃ c, ofNodes (twice [timeout, backoff]) = .ok c ∧
      c.database.maxConnections.toNat = 4294967295 ∧
      c.queue.pollTimeout.nanos = 250 * 1000000 ∧ c.queue.backoff.nanos = 3 * 1000000000 ∧
      c.get .failover = (Setting.failover.values
        (occurrences (twice [timeout, backoff]))).getLast?.getD (standard.get .failover) ∧
      (1 ≤ c.database.maxConnections.toNat ∧ c.database.maxConnections.toNat < UInt32.size) ∧
      ofNodes (twice [backoff, timeout]) = .ok c ∧
      ofNodes [connections 7, connections 4294967295,
        Kdl.Node.withChildren ⟨"queue", [], none⟩ [timeout, backoff]] = .ok c) ∧
    ofNodes (twice [timeout, other, backoff]) = ofNodes (twice [timeout, backoff]) ∧
    ofNodes (other :: twice [timeout, backoff]) = ofNodes (twice [timeout, backoff]) ∧
    ∃ e, ofNodes (connections 0 :: twice [timeout, backoff]) = .error e := by
  intro timeout backoff other
  obtain ⟨-, hinvalid, hvalues, hunknown, hchild, hswap, hchildren, hranges, htaken⟩ :=
    last_value_counts
  have hset : occurrences (twice [timeout, backoff]) = [⟨.maxConnections, some (.integer 7)⟩,
      ⟨.pollTimeout, some (.integer 250)⟩, ⟨.backoff, some (.integer 3)⟩,
      ⟨.maxConnections, some (.integer 4294967295)⟩] := by decide +kernel
  have hpasses : ∀ o ∈ occurrences (twice [timeout, backoff]), o.Passes := by
    rw [hset]
    simp only [List.forall_mem_cons]
    exact ⟨⟨_, rfl, .inr rfl⟩, ⟨_, rfl, .inr rfl⟩, ⟨_, rfl, .inr rfl⟩, ⟨_, rfl, .inr rfl⟩, by simp⟩
  have hothers {before after : List Occurrence} {o : Occurrence}
      (hsplit : occurrences (twice [timeout, backoff]) = before ++ o :: after) :
      ∀ o ∈ before ++ after, o.Passes := by
    intro other hother
    refine hpasses other ?_
    rw [hsplit]
    simp only [List.mem_append, List.mem_cons] at hother ⊢
    exact hother.imp_right .inr
  obtain ⟨hconnections, -, -⟩ :=
    htaken _ [_, _, _] .maxConnections 4294967295 [] hset (hothers hset) (by simp)
  obtain ⟨-, htimeout, -⟩ := htaken _ [_] .pollTimeout 250 [_, _] hset (hothers hset) (by simp)
  obtain ⟨-, -, hbackoff⟩ := htaken _ [_, _] .backoff 3 [_] hset (hothers hset) (by simp)
  obtain ⟨c, hc, hmost⟩ := hconnections rfl (by decide) (by decide)
  obtain ⟨_, hsame, hmillis⟩ := htimeout rfl (by decide) (by decide)
  obtain rfl := Except.ok.inj (hc.symm.trans hsame)
  obtain ⟨_, hsame, hseconds⟩ := hbackoff rfl (by decide)
  obtain rfl := Except.ok.inj (hc.symm.trans hsame)
  refine ⟨⟨c, hc, hmost, hmillis, hseconds, hvalues _ c hc .failover, (hranges _ c hc).1, ?_, ?_⟩,
    ?_, ?_, ?_⟩
  · exact (hchildren [_] ⟨"queue", [], none⟩ [_] [] timeout backoff [] c (by decide)).1 hc
  · exact (hswap [_] _ _ [] c fun s ↦ by cases s <;> decide).1 hc
  · exact hchild [_] ⟨"queue", [], none⟩ [_] [timeout] other [backoff] (by decide)
  · exact hunknown [] other _ (by decide) (by decide)
  · exact ⟨_, (hinvalid _ _).2 ⟨[], _, _, standard, rfl, rfl, rfl⟩⟩

end SystemConfig

end BuildQueue
