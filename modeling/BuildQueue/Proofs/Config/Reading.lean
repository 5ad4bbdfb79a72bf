import BuildQueue.Config.Settings

/-!
# Reading the value of a setting

There are six settings, each with a type and a range. A value of the type and in the range is taken
for what it denotes. The others are invalid, with two exceptions: a `url` of another type is passed
over, and a strategy of another type is taken for missing.
-/

namespace BuildQueue

/-- The number that a value denotes, if it is an integer of the range. -/
def Kdl.Value.within? (r : IntegerRange) (value : Kdl.Value) : Option Nat :=
  value.integer?.bind fun n ↦ if r.contains n then some n.toNat else none

theorem Kdl.Value.within?_eq_some_iff {r : IntegerRange} (hr : 0 ≤ r.lowest) {value : Kdl.Value}
    {k : Nat} : value.within? r = some k ↔ value = .integer k ∧ r.contains k = true := by
  unfold within?
  cases value with
  | integer n =>
    simp only [integer?, Option.bind_some, Option.ite_none_right_eq_some, Option.some.injEq,
      integer.injEq]
    constructor
    · rintro ⟨hn, rfl⟩
      have hpos := (IntegerRange.contains_iff.1 hn).1
      have hk : n = (n.toNat : Int) := by omega
      exact ⟨hk, hk ▸ hn⟩
    · rintro ⟨rfl, hn⟩
      exact ⟨hn, Int.toNat_natCast k⟩
  | _ => simp [integer?]

inductive Setting where
  | url
  | maxConnections
  | strategy
  | failover
  | pollTimeout
  | backoff
  deriving DecidableEq

/-! ## Settings and their values -/

namespace Setting

/-- The name of the setting in documents and in errors. -/
def name : Setting → String
  | .url => "url"
  | .maxConnections => "max-connections"
  | .strategy => "strategy"
  | .failover => "failover"
  | .pollTimeout => "poll-timeout-ms"
  | .backoff => "backoff-seconds"

@[reducible] def Carrier : Setting → Type
  | .url => String
  | .maxConnections => UInt32
  | .strategy => StrategyKind
  | .failover => Bool
  | .pollTimeout => Duration
  | .backoff => Duration

/-- What a value stands for, if it is of the type of the setting and in its range. -/
def read? : (s : Setting) → Kdl.Value → Option s.Carrier
  | .url, value => value.string?
  | .maxConnections, value => (value.within? ⟨1, 4294967295⟩).map .ofNat
  | .strategy, value => value.string?.bind fun name ↦ (StrategyKind.parse name).toOption
  | .failover, value => value.boolean?
  | .pollTimeout, value =>
    (value.within? ⟨1, 18446744073709551615⟩).map fun n ↦ .ofMillis (.ofNat n)
  | .backoff, value => (value.within? .unsigned64).map fun n ↦ .ofSeconds (.ofNat n)

/-- What a setting is without its argument. -/
def missing : Setting → ConfigError
  | .strategy => .missingField "queue strategy"
  | .failover => .invalidValue "failover" "expected #true or #false"
  | s => .missingField s.name

/-- What a value is taken for: nothing where the setting stays as it is. -/
def read : (s : Setting) → Kdl.Value → Except ConfigError (Option s.Carrier)
  | .url, value => .ok value.string?
  | .maxConnections, value => do
    return some (← DatabaseConfig.connections (← value.unsigned "max-connections"))
  | .strategy, value =>
    match value.string? with
    | none => .error (missing strategy)
    | some name => do return some (← QueueConfig.strategyOfName name)
  | .failover, value =>
    match value.boolean? with
    | none => .error (missing failover)
    | some b => .ok (some b)
  | .pollTimeout, value => do
    let ms ← value.unsigned "poll-timeout-ms"
    if ms = 0 then
      throw (.invalidValue "poll-timeout-ms" "must be greater than zero")
    return some (.ofMillis ms)
  | .backoff, value => do return some (.ofSeconds (← value.unsigned "backoff-seconds"))

end Setting

namespace SystemConfig

def get (c : SystemConfig) : (s : Setting) → s.Carrier
  | .url => c.database.url
  | .maxConnections => c.database.maxConnections
  | .strategy => c.queue.strategy
  | .failover => c.queue.failover
  | .pollTimeout => c.queue.pollTimeout
  | .backoff => c.queue.backoff

def set (c : SystemConfig) : (s : Setting) → s.Carrier → SystemConfig
  | .url, url => { c with database := { c.database with url } }
  | .maxConnections, maxConnections => { c with database := { c.database with maxConnections } }
  | .strategy, strategy => { c with queue := { c.queue with strategy } }
  | .failover, failover => { c with queue := { c.queue with failover } }
  | .pollTimeout, pollTimeout => { c with queue := { c.queue with pollTimeout } }
  | .backoff, backoff => { c with queue := { c.queue with backoff } }

variable {c : SystemConfig} {s s' : Setting}

@[simp] theorem get_set_self (a : s.Carrier) : (c.set s a).get s = a := by
  cases s <;> rfl

theorem get_set_of_ne (a : s.Carrier) (h : s' ≠ s) : (c.set s a).get s' = c.get s' := by
  cases s <;> cases s' <;> first | rfl | exact absurd rfl h

/-- A configuration is what it holds for each setting. -/
theorem eq_of_get {c c' : SystemConfig} (h : ∀ s, c.get s = c'.get s) : c = c' := by
  apply SystemConfig.ext
  · exact DatabaseConfig.ext (h .url) (h .maxConnections)
  · exact QueueConfig.ext (h .strategy) (h .failover) (h .pollTimeout) (h .backoff)

end SystemConfig

/-! ## Reading a value -/

theorem Kdl.Value.within?_eq_bind {r : IntegerRange} (hlow : 0 ≤ r.lowest)
    (hhigh : r.highest ≤ 18446744073709551615) (value : Kdl.Value) :
    value.within? r =
      (value.within? .unsigned64).bind fun n ↦ if r.contains n then some n else none := by
  unfold within?
  cases value.integer? with
  | none => rfl
  | some n =>
    simp only [Option.bind_some]
    by_cases hn : r.contains n = true
    · have hbounds := IntegerRange.contains_iff.1 hn
      have hwide : IntegerRange.unsigned64.contains n = true :=
        IntegerRange.contains_iff.2 ⟨Int.le_trans hlow hbounds.1, Int.le_trans hbounds.2 hhigh⟩
      have hnat : (n.toNat : Int) = n := Int.toNat_of_nonneg (Int.le_trans hlow hbounds.1)
      rw [if_pos hwide, Option.bind_some, hnat]
    · rw [if_neg hn]
      split
      next hwide =>
        have hnat : (n.toNat : Int) = n :=
          Int.toNat_of_nonneg (IntegerRange.contains_iff.1 hwide).1
        rw [Option.bind_some, hnat, if_neg hn]
      next => rfl

theorem Kdl.Value.within?_positive (value : Kdl.Value) :
    value.within? ⟨1, 18446744073709551615⟩ =
      (value.within? .unsigned64).bind fun n ↦ if n = 0 then none else some n := by
  rw [within?_eq_bind (by decide) (by decide)]
  apply Option.bind_congr
  intro n hn
  have hle := (IntegerRange.contains_iff.1 ((within?_eq_some_iff (by decide)).1 hn).2).2
  change (n : Int) ≤ 18446744073709551615 at hle
  have hrange : IntegerRange.contains ⟨1, 18446744073709551615⟩ n = true ↔ ¬n = 0 := by
    simp only [IntegerRange.contains_iff]
    omega
  simp only [hrange, ite_not]

/-- An unsigned integer is read, or the field is named that it is for. -/
theorem Kdl.Value.unsigned_eq (value : Kdl.Value) (field : String) :
    ∃ why, value.unsigned field = match value.within? .unsigned64 with
      | some n => .ok (.ofNat n)
      | none => .error (.invalidValue field why) := by
  unfold within? unsigned
  cases value.integer? with
  | none => exact ⟨_, rfl⟩
  | some n =>
    unfold BuildQueue.unsigned
    by_cases hn : IntegerRange.unsigned64.contains n = true
    · simp [hn]
    · simp [hn]

theorem Kdl.Value.toNat_ofNat_of_within? {value : Kdl.Value} {n : Nat}
    (h : value.within? .unsigned64 = some n) : (UInt64.ofNat n).toNat = n := by
  have hn := (IntegerRange.contains_iff.1
    ((within?_eq_some_iff (by decide)).1 h).2).2
  change (n : Int) ≤ 18446744073709551615 at hn
  rw [UInt64.toNat_ofNat']
  omega

theorem DatabaseConfig.connections_eq (n : UInt64) :
    ∃ why, connections n =
      if IntegerRange.contains ⟨1, 4294967295⟩ n.toNat then .ok (.ofNat n.toNat)
      else .error (.invalidValue "max-connections" why) := by
  have hrange : IntegerRange.contains ⟨1, 4294967295⟩ n.toNat = true ↔
      0 < n.toNat ∧ n.toNat < UInt32.size := by
    simp only [IntegerRange.contains_iff, UInt32.size]
    omega
  have hvalue : n.toUInt32 = .ofNat n.toNat := by
    rw [← UInt32.toNat_inj, UInt64.toNat_toUInt32, UInt32.toNat_ofNat']
  unfold connections
  simp only [hvalue, hrange]
  exact ⟨_, rfl⟩

theorem QueueConfig.strategyOfName_eq (name : String) :
    ∃ why, strategyOfName name = match (StrategyKind.parse name).toOption with
      | some strategy => .ok strategy
      | none => .error (.invalidValue "strategy" why) := by
  unfold strategyOfName
  cases StrategyKind.parse name with
  | ok strategy => exact ⟨"", rfl⟩
  | error e => exact ⟨_, rfl⟩

namespace Setting

/-- The values that are taken, and the kinds of errors for the others: only a `url` of another
type is passed over, and only a strategy of another type is taken for missing. -/
theorem read_eq (s : Setting) (value : Kdl.Value) :
    ∃ why, s.read value =
      match s.read? value with
      | some a => .ok (some a)
      | none =>
        if s = .url then .ok none
        else if s = .strategy ∧ value.string? = none then .error s.missing
        else .error (.invalidValue s.name why) := by
  cases s with
  | url =>
    simp only [read, read?]
    cases value.string? <;> exact ⟨"", rfl⟩
  | maxConnections =>
    obtain ⟨why, hunsigned⟩ := value.unsigned_eq "max-connections"
    simp only [read, read?, hunsigned]
    rw [Kdl.Value.within?_eq_bind (r := ⟨1, 4294967295⟩) (by decide) (by decide)]
    cases hn : value.within? .unsigned64 with
    | none => exact ⟨why, rfl⟩
    | some n =>
      obtain ⟨why, hconnections⟩ := DatabaseConfig.connections_eq (.ofNat n)
      rw [Kdl.Value.toNat_ofNat_of_within? hn] at hconnections
      refine ⟨why, ?_⟩
      change (DatabaseConfig.connections (.ofNat n) >>= fun k ↦ pure (some k)) = _
      rw [hconnections, Option.bind_some]
      split <;> rfl
  | strategy =>
    simp only [read, read?]
    cases value.string? with
    | none => exact ⟨"", rfl⟩
    | some name =>
      obtain ⟨why, hname⟩ := QueueConfig.strategyOfName_eq name
      simp only [hname, Option.bind_some]
      cases (StrategyKind.parse name).toOption <;> exact ⟨why, rfl⟩
  | failover =>
    simp only [read, read?]
    cases value.boolean? <;> exact ⟨"expected #true or #false", rfl⟩
  | pollTimeout =>
    obtain ⟨why, hunsigned⟩ := value.unsigned_eq "poll-timeout-ms"
    simp only [read, read?, hunsigned]
    rw [value.within?_positive]
    cases hn : value.within? .unsigned64 with
    | none => exact ⟨why, rfl⟩
    | some n =>
      have hzero : UInt64.ofNat n = 0 ↔ n = 0 := by
        rw [← UInt64.toNat_inj, Kdl.Value.toNat_ofNat_of_within? hn]
        rfl
      refine ⟨"must be greater than zero", ?_⟩
      change (ite (UInt64.ofNat n = 0) _ _) = _
      rw [Option.bind_some]
      by_cases hnone : n = 0
      · rw [if_pos (hzero.2 hnone), if_pos hnone]
        rfl
      · rw [if_neg (mt hzero.1 hnone), if_neg hnone]
        rfl
  | backoff =>
    obtain ⟨why, hunsigned⟩ := value.unsigned_eq "backoff-seconds"
    simp only [read, read?, hunsigned]
    cases value.within? .unsigned64 <;> exact ⟨why, rfl⟩

end Setting

end BuildQueue
