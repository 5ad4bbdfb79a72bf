import BuildQueue.Proofs.Store.History

/-!
# Where rows come from

Jobs are numbered from one without gaps, so an id that is handed out is new and no build takes the
row of another one. A row keeps all that it was put into the queue with; only its status and who
runs it since when are written later.
-/

namespace BuildQueue

/-- The row as it was when it was put into the queue. -/
def BuildRow.atEnqueue (row : BuildRow) : BuildRow :=
  { row with status := .pending, runnerId := none, startedAt := none }

/-- What a pending build shows in the queue is what it was put into the queue with. -/
theorem BuildRow.queued?_atEnqueue {row : BuildRow} (h : row.status = .pending) :
    row.atEnqueue.queued? = row.queued? := by
  unfold queued?
  rw [h]
  rfl

namespace Store

/-- The builds are those from one up to the next id. -/
structure Numbered (s : Store) : Prop where
  one_le : 1 ≤ s.nextJobId.toInt
  isSome_iff : ∀ job, (s.builds.find? job).isSome = true ↔
    1 ≤ job.toInt ∧ job.toInt < s.nextJobId.toInt

/-- Every build of the one store is in the other one, put into the queue with the same. -/
def Keeps (s t : Store) : Prop :=
  ∀ job row, s.builds.find? job = some row →
    ∃ row', t.builds.find? job = some row' ∧ row'.atEnqueue = row.atEnqueue

variable {s t u : Store}

theorem Keeps.refl (s : Store) : s.Keeps s := fun _ row h ↦ ⟨row, h, rfl⟩

theorem Keeps.trans (hst : s.Keeps t) (htu : t.Keeps u) : s.Keeps u := by
  intro job row hfound
  obtain ⟨row', hfound', hrow'⟩ := hst job row hfound
  obtain ⟨row'', hfound'', hrow''⟩ := htu job row' hfound'
  exact ⟨row'', hfound'', hrow''.trans hrow'⟩

theorem Keeps.of_eq (h : t.builds = s.builds) : s.Keeps t := by
  intro job row hfound
  exact ⟨row, by rw [h]; exact hfound, rfl⟩

/-- A build that is pending in both stores stands in the queue in the same way. -/
theorem Keeps.queued?_eq (h : s.Keeps t) {job : JobId} {row row' : BuildRow}
    (hfound : s.builds.find? job = some row) (hfound' : t.builds.find? job = some row')
    (hpending : row.status = .pending) (hpending' : row'.status = .pending) :
    row'.queued? = row.queued? := by
  obtain ⟨kept, hkept, hsame⟩ := h job row hfound
  obtain rfl : kept = row' := Option.some.inj (hkept.symm.trans hfound')
  rw [← BuildRow.queued?_atEnqueue hpending', hsame, BuildRow.queued?_atEnqueue hpending]

/-- A row may be written where there was none, or one that was put into the queue with the same. -/
theorem keeps_writeRow {job : JobId} {row : BuildRow}
    (h : ∀ old, s.builds.find? job = some old → row.atEnqueue = old.atEnqueue) :
    s.Keeps (s.writeRow job row) := by
  intro other old hfound
  rw [find?_builds_writeRow]
  by_cases heq : other = job
  · rw [if_pos heq]
    rw [heq] at hfound
    exact ⟨row, rfl, h old hfound⟩
  · rw [if_neg heq]
    exact ⟨old, hfound, rfl⟩

theorem numbered_empty : empty.Numbered where
  one_le := by decide
  isSome_iff job := by
    have hnext : empty.nextJobId.toInt = 1 := by decide
    have hnone : empty.builds.find? job = none := rfl
    rw [hnone, hnext]
    simp

namespace Numbered

theorem of_eq (h : s.Numbered) (hbuilds : t.builds = s.builds)
    (hnext : t.nextJobId = s.nextJobId) : t.Numbered := by
  constructor
  · rw [hnext]
    exact h.one_le
  · rw [hbuilds, hnext]
    exact h.isSome_iff

/-- The next id is not one of a build. -/
theorem find?_nextJobId (h : s.Numbered) : s.builds.find? s.nextJobId = none := by
  rw [← Option.not_isSome_iff_eq_none, h.isSome_iff]
  exact fun hlt ↦ absurd hlt.2 (Int.lt_irrefl _)

theorem replaceRow (h : s.Numbered) {job : JobId} {old : BuildRow}
    (hfound : s.builds.find? job = some old) (row : BuildRow) : (s.writeRow job row).Numbered := by
  constructor
  · rw [nextJobId_writeRow]
    exact h.one_le
  · intro other
    rw [nextJobId_writeRow, find?_builds_writeRow, ← h.isSome_iff]
    split
    next heq => simp [heq, hfound]
    next => rfl

/-- A new row stands under the id that was next. -/
theorem addRow (h : s.Numbered) {nextJobId : JobId} (hnext : s.nextJobId.next? = some nextJobId)
    (row : BuildRow) : ({ s with nextJobId }.writeRow s.nextJobId row).Numbered := by
  have hcounted : nextJobId.toInt = s.nextJobId.toInt + 1 := Id.toInt_of_next? hnext
  have hone : 1 ≤ s.nextJobId.toInt := h.one_le
  constructor
  · rw [nextJobId_writeRow]
    change 1 ≤ nextJobId.toInt
    omega
  · intro other
    rw [nextJobId_writeRow, find?_builds_writeRow, hcounted]
    split
    next heq =>
      rw [heq]
      simp only [Option.isSome_some, true_iff]
      omega
    next hne =>
      have hint : other.toInt ≠ s.nextJobId.toInt :=
        fun heq ↦ hne (Id.ext (Int64.toInt_inj.1 heq))
      change (s.builds.find? other).isSome = true ↔ _
      rw [h.isSome_iff]
      omega

end Numbered

namespace Effect

variable {op : StoreOperation} {reply : StoreReply}

theorem numbered (heffect : s.Effect op reply t) (h : s.Numbered) : t.Numbered := by
  cases heffect with
  | namespaceAdded id parent => exact h.of_eq rfl rfl
  | projectPut project =>
    obtain ⟨pending, hput, -⟩ := s.putProject_frame project
    exact h.of_eq (by rw [hput]) (by rw [hput])
  | enqueued hproject hnext => exact h.addRow hnext _
  | overflowed => exact h
  | unknownProject => exact h
  | statusSet status hfound => exact h.replaceRow hfound _
  | unknownBuild => exact h
  | availabilitySet available => exact h.of_eq rfl rfl
  | taken runner now hfound => exact h.replaceRow hfound _
  | lost => exact h

/-- No operation takes a build away or changes what it was put into the queue with. -/
theorem keeps (heffect : s.Effect op reply t) (h : s.Numbered) : s.Keeps t := by
  cases heffect with
  | namespaceAdded id parent => exact .of_eq rfl
  | projectPut project =>
    obtain ⟨pending, hput, -⟩ := s.putProject_frame project
    exact .of_eq (by rw [hput])
  | @enqueued build record nextJobId hproject hnext =>
    have hcounted : s.Keeps { s with nextJobId } := .of_eq rfl
    refine hcounted.trans (keeps_writeRow fun old hfound ↦ ?_)
    change s.builds.find? s.nextJobId = some old at hfound
    rw [h.find?_nextJobId] at hfound
    exact absurd hfound (by simp)
  | overflowed => exact .refl s
  | unknownProject => exact .refl s
  | statusSet status hfound =>
    refine keeps_writeRow fun old hold ↦ ?_
    rw [← Option.some.inj (hfound.symm.trans hold)]
    rfl
  | unknownBuild => exact .refl s
  | availabilitySet available => exact .of_eq rfl
  | taken runner now hfound =>
    refine keeps_writeRow fun old hold ↦ ?_
    rw [← Option.some.inj (hfound.symm.trans hold)]
    rfl
  | lost => exact .refl s

end Effect

/-- Whatever was done to a store, its jobs are numbered from one without gaps. -/
theorem numbered_after (ops : List StoreOperation) : (after ops).Numbered := by
  induction ops using List.reverseRecOn with
  | nil => exact numbered_empty
  | append_singleton ops op ih =>
    rw [after_append_singleton]
    exact ((after ops).effect_apply op).numbered ih

/-- Whatever is done to a store later, every build keeps what it was put into the queue with. -/
theorem keeps_after (ops later : List StoreOperation) :
    (after ops).Keeps (after (ops ++ later)) := by
  induction later using List.reverseRecOn with
  | nil =>
    rw [List.append_nil]
    exact .refl _
  | append_singleton later op ih =>
    rw [← List.append_assoc, after_append_singleton]
    exact ih.trans (((after _).effect_apply op).keeps (numbered_after _))

end Store

end BuildQueue
