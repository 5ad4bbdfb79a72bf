import BuildQueue.Proofs.Engine.Accounting

/-!
# Lost races

A pass counts the builds that it lost to others, and the count is dropped with the pass when this
pass fails. So the conflicts of an engine fall short of the races its polls lost by just what was
lost in passes that failed, be it before a failover or at the end of a poll.
-/

namespace BuildQueue

namespace CompletedCall

variable {engine : Engine}

/-- What a call lost in passes that failed. -/
def unreported (call : CompletedCall engine) : Nat :=
  if call.ending? = some .failed then call.lost else lostIn (beforeLastPass call.past)

def totalLost (history : List (CompletedCall engine)) : Nat := (history.map lost).sum

def totalUnreported (history : List (CompletedCall engine)) : Nat := (history.map unreported).sum

theorem conflicts_add_unreported (call : CompletedCall engine) :
    call.metrics.conflicts + .ofNat call.unreported = .ofNat call.lost := by
  have hsplit : call.lost = lostIn (beforeLastPass call.past) + lostIn (lastPass call.past) :=
    lostIn_split call.past
  unfold unreported
  rcases call.tallies_cases with
    ⟨hnone, -, hlost, hmetrics⟩ | ⟨_, _, report, hsome, -, hmetrics, h⟩
  · have hbefore : lostIn (beforeLastPass call.past) = 0 := by omega
    rw [hnone, if_neg (by simp), hmetrics, hbefore, hlost]
    rfl
  · rw [hsome, hmetrics, h.conflicts]
    by_cases hfailed : report.ending = .failed
    · rw [if_pos hfailed, if_pos (congrArg some hfailed)]
      exact UInt64.zero_add _
    · rw [if_neg hfailed, if_neg (by simpa using hfailed), hsplit, UInt64.ofNat_add]
      exact UInt64.add_comm _ _

/-- Without a failover, a call that does not fail reports all that it lost. -/
theorem unreported_eq_zero (call : CompletedCall engine) (hfailovers : call.metrics.failovers = 0)
    (hending : call.ending? ≠ some .failed) : call.unreported = 0 := by
  have hsplit : call.lost = lostIn (beforeLastPass call.past) + lostIn (lastPass call.past) :=
    lostIn_split call.past
  unfold unreported
  rw [if_neg hending]
  rcases call.tallies_cases with ⟨-, -, hlost, -⟩ | ⟨_, _, report, -, -, hmetrics, h⟩
  · omega
  · rw [hmetrics] at hfailovers
    exact h.only_pass hfailovers

theorem conflicts_after (history : List (CompletedCall engine)) :
    (Metrics.after history).conflicts + .ofNat (totalUnreported history) =
      .ofNat (totalLost history) := by
  induction history using List.reverseRecOn with
  | nil => rfl
  | append_singleton history call ih =>
    have hunreported : totalUnreported (history ++ [call]) =
        totalUnreported history + call.unreported := by simp [totalUnreported]
    have hlost : totalLost (history ++ [call]) = totalLost history + call.lost := by
      simp [totalLost]
    have hconflicts : (Metrics.after (history ++ [call])).conflicts =
        (Metrics.after history).conflicts + call.metrics.conflicts := by
      rw [after_append]
      exact Metrics.read_add _ _ .conflicts
    calc
      _ = (Metrics.after history).conflicts + .ofNat (totalUnreported history) +
          (call.metrics.conflicts + .ofNat call.unreported) := by
        rw [hconflicts, hunreported, UInt64.ofNat_add]
        ac_rfl
      _ = .ofNat (totalLost history) + .ofNat call.lost := by
        rw [ih, call.conflicts_add_unreported]
      _ = _ := by rw [hlost, UInt64.ofNat_add]

end CompletedCall

/-- The conflicts of an engine are the races that its calls lost, up to wrapping around, less those
that were lost in passes that failed. They are all of them just if what was lost there is a
multiple of all that a counter can hold; a call that neither fails nor fails over drops none. -/
theorem Engine.conflicts_fall_short (engine : Engine) (history : List (CompletedCall engine)) :
    (Metrics.after history).conflicts + .ofNat (CompletedCall.totalUnreported history) =
        .ofNat (CompletedCall.totalLost history) ∧
    ((Metrics.after history).conflicts = .ofNat (CompletedCall.totalLost history) ↔
        2 ^ 64 ∣ CompletedCall.totalUnreported history) ∧
    ∀ call ∈ history, call.metrics.failovers = 0 → call.ending? ≠ some .failed →
      call.unreported = 0 := by
  have hsum := CompletedCall.conflicts_after history
  refine ⟨hsum, ?_, fun call _ ↦ call.unreported_eq_zero⟩
  rw [← hsum, Nat.dvd_iff_mod_eq_zero]
  have hzero : UInt64.ofNat (CompletedCall.totalUnreported history) = 0 ↔
      CompletedCall.totalUnreported history % 2 ^ 64 = 0 := by
    rw [← UInt64.toNat_inj, UInt64.toNat_ofNat']
    rfl
  rw [← hzero]
  exact UInt64.left_eq_add

/-- A projection that shows one build and then something more, while a rival comes first to this
build. -/
def Bench.outrun (more : List ScriptItem) : Bench :=
  .base
    { BenchParts.stored with
      projection := .script .projection (.store :: more) none
      claims := .script { ClaimScript.plain with rivals := .insert .empty ⟨1⟩ [(⟨1⟩, ⟨8⟩)] } }

/-- A poll that meets the rival. -/
def CompletedCall.outrun (more : List ScriptItem) : CompletedCall (Bench.outrun more).engine :=
  .polled ⟨⟨7⟩, .everything, .empty, true, true, true⟩ ⟨none, some default⟩ _ _
    (Program.completes_run Bench.handle _ (Bench.outrun more))

/-- With nothing more to read, the race is counted. -/
theorem Engine.conflicts_fall_short_outrun :
    let call := CompletedCall.outrun []
    call.metrics.failovers = 0 ∧ call.ending? ≠ some .failed ∧ call.unreported = 0 ∧
    call.lost = 1 ∧
    (Metrics.after [call]).conflicts + .ofNat (CompletedCall.totalUnreported [call]) =
      .ofNat (CompletedCall.totalLost [call]) := by
  intro call
  have hfailovers : call.metrics.failovers = 0 := by decide +kernel
  have hending : call.ending? ≠ some .failed := by decide +kernel
  obtain ⟨hsum, -, hall⟩ := Engine.conflicts_fall_short _ [call]
  have hunreported : call.unreported = 0 := hall call List.mem_cons_self hfailovers hending
  exact ⟨hfailovers, hending, hunreported, by decide +kernel, hsum⟩

/-- A snapshot that breaks off after the race makes the poll fail over, and the race is not
counted. -/
theorem Engine.race_before_failover_not_counted :
    let call := CompletedCall.outrun [.error (.backend "connection reset")]
    call.lost = 1 ∧ call.metrics = { Metrics.emptyPoll with failovers := 1 } ∧
    (Metrics.after [call]).conflicts ≠ .ofNat (CompletedCall.totalLost [call]) := by
  decide +kernel

end BuildQueue
