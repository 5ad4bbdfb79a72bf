import BuildQueue.Proofs.Engine.OnePass

/-!
# Builds held back

A poll without a cutoff of its own holds back what was queued less than the backoff ago. Its cutoff
is the exact difference of the clock and the backoff or, where there is no such instant, the
earliest one. A backoff may be too long for a span, or a span may reach back too far; a backoff that
is too long always reaches back too far, so there is no gap between the two.
-/

namespace BuildQueue

/-! ## Going back -/

namespace Instant

variable {t t' q : Instant} {d d' : Duration}

@[simp] theorem nanos_earliest : earliest.nanos = -8334601228800000000000 := rfl

theorem span?_eq_none_iff : span? d = none ↔ longestSpan < d.nanos := by
  unfold span?
  split
  next hle => exact iff_of_false (by simp) (Nat.not_lt_of_le hle)
  next hlong => exact iff_of_true rfl (Nat.lt_of_not_le hlong)

/-- Going back fails only at the lower end. -/
theorem offset?_neg_eq_none_iff {span : Int} (hspan : 0 ≤ span) :
    t.offset? (-span) = none ↔ t.nanos - span < earliest.nanos := by
  have hlatest := t.le_highest
  unfold offset? ofNanos?
  rw [nanos_earliest]
  split
  next hin => exact iff_of_false (by simp) (by omega)
  next hout => exact iff_of_true rfl (by omega)

theorem nanos_offset? {span : Int} (h : t.offset? span = some q) : q.nanos = t.nanos + span := by
  unfold offset? ofNanos? at h
  split at h
  · cases h
    rfl
  · cases h

/-- The longest span is longer than the time between the earliest and the latest instant. -/
theorem sub_longestSpan_lt (t : Instant) : t.nanos - longestSpan < earliest.nanos := by
  have hlatest := t.le_highest
  rw [nanos_earliest]
  unfold longestSpan
  omega

theorem nanos_before (t : Instant) (d : Duration) :
    (t.before d).nanos = max earliest.nanos (t.nanos - d.nanos) := by
  have hspan : span? d = none ∨ span? d = some ↑d.nanos := by
    unfold span?
    split <;> simp
  unfold before
  rcases hspan with hlong | hspan
  · -- There is no span so long, and it would end before the earliest instant.
    have hd := span?_eq_none_iff.1 hlong
    have ht := t.sub_longestSpan_lt
    rw [hlong, Option.bind_none, Option.getD_none]
    omega
  · rw [hspan, Option.bind_some]
    cases hback : t.offset? (-(d.nanos : Int)) with
    | none =>
      have hlow := (offset?_neg_eq_none_iff (Int.natCast_nonneg d.nanos)).1 hback
      rw [Option.getD_none]
      omega
    | some q =>
      have hq := nanos_offset? hback
      have hlow : earliest.nanos ≤ q.nanos := q.lowest_le
      rw [Option.getD_some]
      omega

theorem before_le_before (ht : t ≤ t') (hd : d'.nanos ≤ d.nanos) : t.before d ≤ t'.before d' := by
  rw [le_def] at ht ⊢
  rw [nanos_before, nanos_before]
  omega

/-- What is later than the earliest instant is not after the cutoff just if it is old enough. -/
theorem le_before_iff (hq : earliest < q) :
    q ≤ t.before d ↔ (d.nanos : Int) ≤ t.nanos - q.nanos := by
  rw [lt_def] at hq
  rw [le_def, nanos_before]
  omega

end Instant

/-! ## What is old enough -/

theorem Eligibility.admits_before_iff {runner : Runner} {now : Instant} {backoff : Duration}
    {build : QueuedBuild} (hbuild : Instant.earliest < build.queuedAt) :
    Eligibility.admits ⟨runner, now.before backoff⟩ build = true ↔
      (backoff.nanos : Int) ≤ now.nanos - build.queuedAt.nanos ∧
        runner.acceptsProtection build = true ∧ runner.acceptsTags build.tags = true := by
  unfold admits QueuedBuild.queuedBy
  rw [Bool.and_eq_true, Bool.and_eq_true, decide_eq_true_iff, Instant.le_before_iff hbuild,
    and_assoc]

/-- A pass that comes to the end of its snapshot claims every build that it is shown and admits. -/
theorem Pass.Runs.claimedIn_of_exhausted {eligibility : Eligibility} {deadline : Tick} {p : Pass}
    (h : p.Runs eligibility deadline) {skipped : Nat} (hend : p.result = .ok (.exhausted skipped)) :
    claimedIn p.made =
      ((p.snapshot.builds (answersIn p.made)).filter eligibility.admits).map (·.jobId) := by
  obtain ⟨walked, left, last, hmade, hwalk, hstops⟩ := Feed.exists_walk h
  rw [hend] at hstops
  cases hstops with
  | exhausted =>
    rw [List.append_nil] at hmade
    have hall := hwalk.claimedIn_append []
    rw [List.append_nil] at hall
    rw [← Feed.builds_filter, hmade]
    exact (hall.trans (List.append_nil _)).symm

namespace Engine

/-- A poll without a cutoff of its own reads the time of day once. -/
theorem readings_of_default {engine : Engine} {runner : Runner} {timeout : Option Duration}
    {report : Report PollOutcome} {s : Stages} (h : s.Of engine runner ⟨timeout, none⟩ report) :
    ∃ now, s.readings = [⟨.wallClock, now⟩] ∧ s.cutoff = engine.defaultCutoff now := by
  obtain ⟨now, rest, hreadings, hrest⟩ := Program.completes_ask.1 h.cutoff
  obtain ⟨rfl, hcutoff⟩ := Program.completes_done.1 hrest
  exact ⟨now, hreadings, hcutoff⟩

/-- The cutoff of a backoff is the later one of the earliest instant and now less the backoff. A
longer backoff gives no later cutoff, a later reading of the clock no earlier one. A poll that does
not bring a cutoff of its own admits, of the builds queued after the earliest instant, just those
that are at least as old as the backoff at its reading of the clock, as far as ref and tags allow.
It claims only what it admits, and all of it where it comes to the end of a snapshot. -/
theorem backoff_holds_back (engine : Engine) :
    (∀ now, (engine.defaultCutoff now).nanos =
      max Instant.earliest.nanos (now.nanos - engine.backoff.nanos)) ∧
    (Instant.span? engine.backoff = none ↔ Instant.longestSpan < engine.backoff.nanos) ∧
    (∀ (now : Instant) (span : Int), 0 ≤ span →
      (now.offset? (-span) = none ↔ now.nanos - span < Instant.earliest.nanos)) ∧
    (∀ (other : Engine) (now : Instant), engine.backoff.nanos ≤ other.backoff.nanos →
      other.defaultCutoff now ≤ engine.defaultCutoff now) ∧
    (∀ now now' : Instant, now ≤ now' → engine.defaultCutoff now ≤ engine.defaultCutoff now') ∧
    ∀ (runner : Runner) (timeout : Option Duration) (past : List Exchange)
      (report : Report PollOutcome), runner.active = true →
      (engine.poll runner ⟨timeout, none⟩).Completes past report →
      ∃ (s : Stages) (now : Instant), past = s.exchanges ∧
        s.Of engine runner ⟨timeout, none⟩ report ∧ s.readings = [⟨.wallClock, now⟩] ∧
        s.cutoff = engine.defaultCutoff now ∧
        (∀ build : QueuedBuild, Instant.earliest < build.queuedAt →
          (Eligibility.admits ⟨runner, s.cutoff⟩ build = true ↔
            (engine.backoff.nanos : Int) ≤ now.nanos - build.queuedAt.nanos ∧
              runner.acceptsProtection build = true ∧ runner.acceptsTags build.tags = true)) ∧
        ∀ p ∈ s.passes,
          let admitted := (p.snapshot.builds (answersIn p.made)).filter
            (Eligibility.admits ⟨runner, s.cutoff⟩)
          claimedIn p.made <+: admitted.map (·.jobId) ∧
          ∀ skipped, p.result = .ok (.exhausted skipped) →
            claimedIn p.made = admitted.map (·.jobId) := by
  refine ⟨fun now ↦ now.nanos_before engine.backoff, Instant.span?_eq_none_iff,
    fun now span ↦ Instant.offset?_neg_eq_none_iff,
    fun other now ↦ Instant.before_le_before (Int.le_refl now.nanos),
    fun now now' hnow ↦ Instant.before_le_before hnow (Nat.le_refl _), ?_⟩
  intro runner timeout past report hactive h
  obtain ⟨s, rfl, hs⟩ := Engine.poll_completes hactive h
  obtain ⟨now, hreadings, hcutoff⟩ := readings_of_default hs
  refine ⟨s, now, rfl, hs, hreadings, hcutoff, fun build hbuild ↦ ?_, fun p hp ↦ ?_⟩
  · rw [hcutoff]
    exact Eligibility.admits_before_iff hbuild
  · have hruns := hs.runs p hp
    exact ⟨hruns.claimedIn_prefix, fun skipped ↦ hruns.claimedIn_of_exhausted⟩

example : Engine.defaultCutoff ⟨true, .zero, .ofSeconds 18446744073709551615⟩ .latest =
    .earliest := by decide

end Engine

/-- Ten seconds after 1970 began, with two builds in the queue: one that is ten seconds old and
lost, and one that is a nanosecond younger. -/
def Bench.ripening : Bench :=
  let start : Instant := default
  .scripted (.ofSeconds 10) (start.shift 10000000000)
    [.build ⟨⟨1⟩, ⟨10⟩, ⟨1⟩, .empty, false, start⟩,
      .build ⟨⟨2⟩, ⟨10⟩, ⟨1⟩, .empty, false, start.shift 1⟩] [⟨1⟩]

/-- The build that is as old as the backoff is claimed, and lost; the other one is held back. -/
theorem Engine.backoff_holds_back_ripening :
    let b := Bench.ripening
    let runner : Runner := ⟨⟨7⟩, .everything, .empty, true, true, true⟩
    let poll := b.engine.poll runner ⟨none, none⟩
    let past := poll.transcript Bench.handle b
    let report := (poll.run Bench.handle b).1
    runner.active = true ∧ poll.Completes past report ∧ claimedIn past = [⟨1⟩] ∧
    report.result = .ok .empty ∧
    ∃ (s : Stages) (now : Instant), past = s.exchanges ∧ s.readings = [⟨.wallClock, now⟩] ∧
      s.cutoff.nanos = max Instant.earliest.nanos (now.nanos - 10000000000) ∧
      ∀ p ∈ s.passes, claimedIn p.made <+: ((p.snapshot.builds (answersIn p.made)).filter
        (Eligibility.admits ⟨runner, s.cutoff⟩)).map (·.jobId) := by
  intro b runner poll past report
  have hcompletes : poll.Completes past report := Program.completes_run Bench.handle poll b
  obtain ⟨hcutoff, -, -, -, -, hpoll⟩ := Engine.backoff_holds_back b.engine
  obtain ⟨s, now, hpast, -, hreadings, hs, -, hpasses⟩ :=
    hpoll runner none past report rfl hcompletes
  refine ⟨rfl, hcompletes, by decide +kernel, by decide +kernel, s, now, hpast, hreadings, ?_,
    fun p hp ↦ (hpasses p hp).1⟩
  rw [hs]
  exact hcutoff now

end BuildQueue
