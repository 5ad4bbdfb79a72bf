import BuildQueue.Proofs.Simulation.Pursuit
import BuildQueue.Simulation
import Mathlib.Algebra.Order.Ring.Int

/-!
# The store to drain

The seed puts builds into an empty store one after the other, under the ids from one on and a second
apart. As long as their instants are represented, all of them are then left to take in the order of
their ids, and every runner of the simulation may take every one of them.
-/

namespace BuildQueue

theorem Id.toInt_ofInt {r : Resource} {n : Int} (h : 0 ≤ n ∧ n < 2 ^ 63) :
    (ofInt n : Id r).toInt = n :=
  Int64.toInt_ofInt_of_le (by omega) h.2

theorem Id.next?_ofInt {r : Resource} {n : Int} (h : 0 ≤ n ∧ n + 1 < 2 ^ 63) :
    (ofInt n : Id r).next? = some (ofInt (n + 1)) := by
  have hrange : IntegerRange.signed64.contains (n + 1) = true := by
    rw [IntegerRange.contains_iff]
    change -9223372036854775808 ≤ n + 1 ∧ n + 1 ≤ 9223372036854775807
    omega
  unfold next? ofInt?
  rw [toInt_ofInt ⟨h.1, by omega⟩, if_pos hrange]

theorem Instant.nanos_shift {t u : Instant} {span : Int} (h : t.offset? span = some u) :
    (t.shift span).nanos = t.nanos + span := by
  unfold shift
  rw [h]
  unfold offset? ofNanos? at h
  split at h
  next => rw [← Option.some.inj h]; rfl
  next => simp at h

theorem Instant.le_shift (t : Instant) {span : Int} (h : 0 ≤ span) : t ≤ t.shift span := by
  cases hshift : t.offset? span with
  | none =>
    unfold shift
    rw [hshift, Option.getD_none, if_neg (Int.not_lt.2 h)]
    exact t.le_highest
  | some u =>
    rw [le_def, nanos_shift hshift]
    exact Int.le_add_of_nonneg_right h

theorem Instant.offset?_of_le {t : Instant} {span : Int}
    (h : -8334601228800000000000 ≤ t.nanos + span ∧ t.nanos + span ≤ 8210266876799999999999) :
    ∃ u, t.offset? span = some u := by
  unfold offset? ofNanos?
  rw [dif_pos h]
  exact ⟨_, rfl⟩

namespace Simulation

/-- Build number `i` as it is put into the queue. -/
def seedQueued (start : Instant) (i : Nat) : QueuedBuild where
  jobId := .ofInt (i + 1)
  projectId := (seedBuild start i).projectId
  namespaceId := .ofInt 1
  tags := (seedBuild start i).tags
  refProtected := (seedBuild start i).refProtected
  queuedAt := (seedBuild start i).queuedAt

/-- The builds that are put into the store, in the order of their ids. -/
def seedQueue (start : Instant) (builds : Nat) : List QueuedBuild :=
  (List.range builds).map (seedQueued start)

/-- The jobs from one on. -/
def firstJobs (builds : Nat) : List JobId := (List.range builds).map fun (i : Nat) ↦ .ofInt (i + 1)

theorem jobIds_seedQueue (start : Instant) (builds : Nat) :
    (seedQueue start builds).map (·.jobId) = firstJobs builds := by
  unfold seedQueue firstJobs
  rw [List.map_map]
  rfl

/-! ## Putting the builds in -/

/-- So many builds were put into the store, and nothing else happened to it. -/
structure Seeded (start : Instant) (builds : Nat) (s : Store) : Prop where
  sound : s.Sound
  available : s.projectionAvailable = true
  projects : s.projects = seedProjects.projects
  nextJobId : s.nextJobId = .ofInt (builds + 1)
  builds : ∀ job row, s.builds.find? job = some row ↔
    ∃ i : Nat, i < builds ∧ job = .ofInt (i + 1) ∧
      row = (seedBuild start i).row (.ofInt (i + 1)) (.ofInt 1)

theorem seedProjects_find? (start : Instant) (i : Nat) :
    seedProjects.projects.find? (seedBuild start i).projectId =
      some (.opened (seedBuild start i).projectId (.ofInt 1)) := by
  have hproject : (seedBuild start i).projectId = .ofInt ((i : Int) % 3 + 1) := rfl
  rw [hproject]
  rcases (by omega : (i : Int) % 3 = 0 ∨ (i : Int) % 3 = 1 ∨ (i : Int) % 3 = 2) with h | h | h
  all_goals
    rw [h]
    decide

theorem seeded_seedProjects (start : Instant) : Seeded start 0 seedProjects where
  sound := by
    have hafter : seedProjects = Store.after [.addNamespace (.ofInt 1) none,
        .putProject (.opened (.ofInt 1) (.ofInt 1)), .putProject (.opened (.ofInt 2) (.ofInt 1)),
        .putProject (.opened (.ofInt 3) (.ofInt 1))] := rfl
    rw [hafter]
    exact Store.sound_after _
  available := rfl
  projects := rfl
  nextJobId := rfl
  builds job row := by
    have hnone : seedProjects.builds = .empty := rfl
    rw [hnone]
    simp

theorem Seeded.enqueue {start : Instant} {builds : Nat} {s : Store} (h : Seeded start builds s)
    (hbuilds : builds + 2 < 2 ^ 63) : ∃ s',
      s.enqueue (seedBuild start builds) = .ok (some (s.nextJobId, s')) ∧
        Seeded start (builds + 1) s' := by
  have hproject : s.projects.find? (seedBuild start builds).projectId =
      some (.opened (seedBuild start builds).projectId (.ofInt 1)) := by
    rw [h.projects]
    exact seedProjects_find? start builds
  have hnext : s.nextJobId.next? = some (.ofInt (builds + 1 + 1)) := by
    rw [h.nextJobId]
    exact Id.next?_ofInt (by omega)
  let counted : Store := { s with nextJobId := .ofInt (builds + 1 + 1) }
  let row : BuildRow := (seedBuild start builds).row s.nextJobId (.ofInt 1)
  have hsound : (counted.writeRow s.nextJobId row).Sound := by
    have happly := h.sound.apply (.enqueue (seedBuild start builds))
    rw [Store.apply_enqueue hproject hnext] at happly
    exact happly
  obtain ⟨pending, hwrite⟩ := Store.writeRow_frame (s := counted) s.nextJobId row
  refine ⟨counted.writeRow s.nextJobId row, ?_, hsound, ?_, ?_, ?_, fun job found ↦ ?_⟩
  · simp [Store.enqueue, hproject, hnext, Store.writeRow, NewBuild.row, ProjectRecord.opened,
      counted, row]
  · rw [hwrite]
    exact h.available
  · rw [hwrite]
    exact h.projects
  · rw [hwrite]
    change Id.ofInt (builds + 1 + 1) = Id.ofInt ((builds + 1 : Nat) + 1)
    rw [Int.natCast_add, Int.natCast_one]
  · rw [Store.find?_builds_writeRow, h.nextJobId]
    constructor
    · intro hfound
      split at hfound
      next hjob =>
        refine ⟨builds, by omega, hjob, ?_⟩
        rw [← Option.some.inj hfound, ← h.nextJobId]
      next =>
        obtain ⟨i, hi, hrow⟩ := (h.builds job found).1 hfound
        exact ⟨i, by omega, hrow⟩
    · rintro ⟨i, hi, rfl, rfl⟩
      by_cases hlast : i = builds
      · rw [hlast, if_pos rfl, ← h.nextJobId]
      · have hne : (Id.ofInt (i + 1) : JobId) ≠ .ofInt (builds + 1) := by
          intro heq
          have hint := congrArg Id.toInt heq
          rw [Id.toInt_ofInt (by omega), Id.toInt_ofInt (by omega)] at hint
          omega
        rw [if_neg hne]
        exact (h.builds _ _).2 ⟨i, by omega, rfl, rfl⟩

/-- Before its first build the queue of so many builds goes back to this instant. -/
def seedStart (now : Instant) (builds : Nat) : Instant :=
  now.shift (-((builds + 1) * nanosPerSecond : Nat))

theorem exists_seed (now : Instant) {builds : Nat} (hbuilds : builds + 1 < 2 ^ 63) :
    ∃ s, seed now builds = .ok s ∧ Seeded (seedStart now builds) builds s := by
  change ∃ s, List.foldlM (fun s i ↦ (s.enqueue (seedBuild (seedStart now builds) i)).map
    fun added ↦ added.elim s (·.2)) seedProjects (List.range builds) = .ok s ∧ _
  generalize seedStart now builds = start
  induction builds with
  | zero => exact ⟨seedProjects, rfl, seeded_seedProjects start⟩
  | succ builds ih =>
    obtain ⟨s, hs, hseeded⟩ := ih (by omega)
    obtain ⟨s', hs', hseeded'⟩ := hseeded.enqueue (by omega)
    refine ⟨s', ?_, hseeded'⟩
    have hgoOn (f : Store → Except QueueError Store) : (Except.ok s >>= f) = f s := rfl
    rw [List.range_succ, List.foldlM_append, hs, hgoOn, List.foldlM_cons, hs']
    rfl

/-! ## What is left to take -/

theorem natCast_nanosPerSecond : (nanosPerSecond : Int) = 1000000000 := rfl

/-- All instants of the seed are represented. -/
def Represents (now : Instant) (builds : Nat) : Prop :=
  (now.offset? (-((builds + 1) * nanosPerSecond : Nat))).isSome = true

theorem Represents.lowest_le {now : Instant} {builds : Nat} (h : Represents now builds) :
    -8334601228800000000000 ≤ now.nanos - (builds + 1) * 1000000000 := by
  unfold Represents Instant.offset? Instant.ofNanos? at h
  split at h
  next hrange =>
    have hlowest := hrange.1
    rw [Int.natCast_mul, natCast_nanosPerSecond, Int.natCast_add] at hlowest
    omega
  next => simp at h

theorem Represents.lt {now : Instant} {builds : Nat} (h : Represents now builds) :
    builds + 1 < 2 ^ 63 := by
  have hlowest := h.lowest_le
  have hhighest := now.le_highest
  omega

theorem Represents.nanos_seedStart {now : Instant} {builds : Nat} (h : Represents now builds) :
    (seedStart now builds).nanos = now.nanos - (builds + 1) * 1000000000 := by
  obtain ⟨start, hstart⟩ := Option.isSome_iff_exists.1 h
  unfold seedStart
  rw [Instant.nanos_shift hstart, Int.natCast_mul, natCast_nanosPerSecond, Int.natCast_add]
  omega

/-- Builds are a second apart, and the last one is queued before now. -/
theorem Represents.nanos_queuedAt {now : Instant} {builds : Nat} (h : Represents now builds)
    {i : Nat} (hi : i < builds) : (seedQueued (seedStart now builds) i).queuedAt.nanos =
      now.nanos - (builds + 1) * 1000000000 + i * 1000000000 := by
  have hstart := h.nanos_seedStart
  have hlowest := h.lowest_le
  have hhighest := now.le_highest
  obtain ⟨queuedAt, hqueuedAt⟩ : ∃ u, (seedStart now builds).offset? (i * 1000000000) = some u :=
    Instant.offset?_of_le (by omega)
  change ((seedStart now builds).shift (i * 1000000000)).nanos = _
  rw [Instant.nanos_shift hqueuedAt, hstart]

theorem Represents.queuedAt_le {now : Instant} {builds : Nat} (h : Represents now builds) {i : Nat}
    (hi : i < builds) : (seedQueued (seedStart now builds) i).queuedAt ≤ now := by
  rw [Instant.le_def, h.nanos_queuedAt hi]
  omega

theorem Represents.seedQueue_pairwise {now : Instant} {builds : Nat} (h : Represents now builds) :
    (seedQueue (seedStart now builds) builds).Pairwise QueuedBuild.Before := by
  unfold seedQueue
  rw [List.pairwise_map]
  refine List.pairwise_lt_range.imp_of_mem fun {i j} hi hj hij ↦ .inl ?_
  rw [Instant.lt_def, h.nanos_queuedAt (List.mem_range.1 hi), h.nanos_queuedAt (List.mem_range.1 hj)]
  omega

/-- All builds of the seed are left. -/
theorem Seeded.remains {now : Instant} {builds : Nat} (h : Represents now builds) {s : Store}
    (hs : Seeded (seedStart now builds) builds s) :
    s.Remains now (seedQueue (seedStart now builds) builds) where
  sound := hs.sound
  available := hs.available
  scan_eq cutoff hcutoff := by
    apply QueuedBuild.eq_of_mem_iff (hs.sound.scanBuilds_pairwise _ _) h.seedQueue_pairwise
    intro build
    rw [hs.sound.mem_scanBuilds]
    constructor
    · rintro ⟨hbuild, -⟩
      obtain ⟨row, hfound, hqueued⟩ := Option.bind_eq_some_iff.1 hbuild
      obtain ⟨i, hi, -, rfl⟩ := (hs.builds _ _).1 hfound
      exact List.mem_map.2 ⟨i, List.mem_range.2 hi, Option.some.inj hqueued⟩
    · intro hmem
      obtain ⟨i, hrange, rfl⟩ := List.mem_map.1 hmem
      have hi : i < builds := List.mem_range.1 hrange
      refine ⟨?_, Int.le_trans (h.queuedAt_le hi) hcutoff, ?_⟩
      · have hfound : s.builds.find? (seedQueued (seedStart now builds) i).jobId =
            some ((seedBuild (seedStart now builds) i).row (.ofInt (i + 1)) (.ofInt 1)) :=
          (hs.builds _ _).2 ⟨i, hi, rfl, rfl⟩
        rw [hfound]
        rfl
      · change s.openToInstance (seedBuild (seedStart now builds) i).projectId = true
        unfold Store.openToInstance
        rw [hs.projects, seedProjects_find?]
        rfl
  pending job hjob := by
    obtain ⟨row, hfound, -⟩ := Option.map_eq_some_iff.1 hjob
    obtain ⟨i, hi, rfl, -⟩ := (hs.builds _ _).1 hfound
    exact List.mem_map.2 ⟨_, List.mem_map.2 ⟨i, List.mem_range.2 hi, rfl⟩, rfl⟩

theorem mem_runnerTags_of_mem_seedTags {i : Nat} {tag : String} (h : tag ∈ seedTags i) :
    tag ∈ ["docker", "linux"] := by
  unfold seedTags at h
  split at h
  · exact absurd h List.not_mem_nil
  · exact List.mem_cons.2 (.inl (List.mem_singleton.1 h))
  · exact h

/-- Every runner of the simulation may take every build of the seed. -/
theorem seedRunner_suits {now : Instant} {builds : Nat} (h : Represents now builds) (i : Nat) :
    (seedRunner i).Suits now (seedQueue (seedStart now builds) builds) where
  active := rfl
  scope := rfl
  admits cutoff hcutoff build hbuild := by
    obtain ⟨j, hj, rfl⟩ := List.mem_map.1 hbuild
    have hqueued : (seedQueued (seedStart now builds) j).queuedAt ≤ cutoff :=
      Int.le_trans (h.queuedAt_le (List.mem_range.1 hj)) hcutoff
    have htags : (seedRunner i).acceptsTags (.ofList (seedTags j)) = true := by
      unfold Runner.acceptsTags
      split
      · rfl
      · rw [OrderedSet.subset_iff]
        intro tag htag
        exact OrderedSet.mem_ofList.2 (mem_runnerTags_of_mem_seedTags (OrderedSet.mem_ofList.1 htag))
    unfold Eligibility.admits QueuedBuild.queuedBy Runner.acceptsProtection
    rw [decide_eq_true hqueued]
    change (true && (_ || true) && _) = true
    rw [Bool.or_true]
    exact htags

end Simulation

end BuildQueue
