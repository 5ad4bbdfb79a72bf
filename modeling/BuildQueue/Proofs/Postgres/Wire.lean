import BuildQueue.Postgres.Row
import BuildQueue.Proofs.QueueOrder

/-!
# Builds on the wire

A server counts time in microseconds. An instant that is a whole number of them comes back from the
server as it was sent, and such instants keep their order. So a build queued at one is read as the
very build that the server has, and the server sees the queue in the same order.
-/

namespace BuildQueue

namespace Instant

/-- The instant is represented exactly on the wire. -/
def OnWire (t : Instant) : Prop := ofMicros? t.toMicros = some t

instance (t : Instant) : Decidable t.OnWire := inferInstanceAs (Decidable (_ = _))

theorem OnWire.nanos_eq {t : Instant} (h : t.OnWire) :
    t.nanos = millennium + t.toMicros * 1000 := by
  unfold OnWire ofMicros? ofNanos? at h
  split at h
  next hrange => exact (congrArg nanos (Option.some.inj h)).symm
  next => exact absurd h (by simp)

theorem OnWire.toMicros_lt_iff {t u : Instant} (ht : t.OnWire) (hu : u.OnWire) :
    t.toMicros < u.toMicros ↔ t < u := by
  have hnanos := ht.nanos_eq
  have hnanos' := hu.nanos_eq
  rw [lt_def]
  omega

theorem OnWire.toMicros_eq_iff {t u : Instant} (ht : t.OnWire) (hu : u.OnWire) :
    t.toMicros = u.toMicros ↔ t = u := by
  constructor
  · intro h
    have hsame : some t = some u := by rw [← ht, ← hu, h]
    exact Option.some.inj hsame
  · intro h
    rw [h]

/-- Every instant that is read off the wire is represented on it. -/
theorem ofMicros?_eq_some_iff {micros : Int} {t : Instant} :
    ofMicros? micros = some t ↔ t.toMicros = micros ∧ t.OnWire := by
  have hexact : ofMicros? micros = some t → t.toMicros = micros := by
    intro h
    unfold ofMicros? ofNanos? at h
    split at h
    next =>
      rw [← Option.some.inj h]
      have hspan : millennium + micros * 1000 - millennium = micros * 1000 := by omega
      change (millennium + micros * 1000 - millennium).tdiv 1000 = micros
      rw [hspan, Int.mul_tdiv_cancel _ (by decide)]
    next => exact absurd h (by simp)
  constructor
  · intro h
    obtain rfl := hexact h
    exact ⟨rfl, h⟩
  · rintro ⟨rfl, h⟩
    exact h

end Instant

/-- The rows of an answer are read one by one, in their order. -/
theorem Postgres.Answer.rows_map {α β : Type} {read : Row → Option α} {row : β → Row}
    {value : β → α} {bs : List β} (h : ∀ b ∈ bs, read (row b) = some (value b)) :
    Answer.rows read (.ok (bs.map row)) = .ok (bs.map value) := by
  have hread : (bs.map row).mapM read = some (bs.map value) := by
    induction bs with
    | nil => rfl
    | cons b bs ih =>
      have hrest := ih fun c hc ↦ h c (List.mem_cons_of_mem _ hc)
      rw [List.map_cons, List.mapM_cons, h b List.mem_cons_self, hrest]
      rfl
  simp only [Answer.rows, hread]

/-- What was written row by row is read as it was. -/
theorem Postgres.Answer.rows_map_self {α : Type} {read : Row → Option α} {row : α → Row}
    {as : List α} (h : ∀ a ∈ as, read (row a) = some a) :
    Answer.rows read (.ok (as.map row)) = .ok as := by
  have hread : Answer.rows read (.ok (as.map row)) = .ok (as.map fun a ↦ a) := rows_map h
  rw [List.map_id'] at hread
  exact hread

/-- One row that cannot be read makes an answer an error. -/
theorem Postgres.Answer.rows_of_none {α : Type} {read : Row → Option α} {rows : List Row}
    (h : ∃ row ∈ rows, read row = none) : Answer.rows read (.ok rows) = .error .unexpectedRow := by
  have hread : rows.mapM read = none := by
    induction rows with
    | nil => simp at h
    | cons row rows ih =>
      rw [List.mapM_cons]
      cases hrow : read row with
      | none => rfl
      | some a =>
        obtain ⟨other, hmem, hother⟩ := h
        rcases List.mem_cons.1 hmem with rfl | hmem
        · exact absurd (hrow.symm.trans hother) (by simp)
        · rw [ih ⟨other, hmem, hother⟩]
          rfl
  simp only [Answer.rows, hread]

/-- A row of the queue as a server has it: its tags are a list. -/
structure Postgres.QueueRow where
  jobId : JobId
  projectId : ProjectId
  namespaceId : NamespaceId
  tags : List String
  refProtected : Bool
  queuedAt : Instant
  onWire : queuedAt.OnWire

namespace Postgres.QueueRow

/-- The columns of the row, in the order of the statement. -/
def columns (row : QueueRow) : Row :=
  [.ofId row.jobId, .ofId row.projectId, .ofId row.namespaceId, .texts row.tags,
    .boolean row.refProtected, .ofInstant row.queuedAt]

def build (row : QueueRow) : QueuedBuild :=
  ⟨row.jobId, row.projectId, row.namespaceId, .ofList row.tags, row.refProtected, row.queuedAt⟩

theorem ofRow?_columns (row : QueueRow) : QueuedBuild.ofRow? row.columns = some row.build := by
  have hqueuedAt : Instant.ofMicros? row.queuedAt.toMicros = some row.queuedAt := row.onWire
  simp [columns, build, QueuedBuild.ofRow?, Value.ofId, Value.ofInstant, hqueuedAt]

/-- No other rows are read. -/
theorem exists_of_ofRow? {columns : Row} {build : QueuedBuild}
    (h : QueuedBuild.ofRow? columns = some build) : ∃ row : QueueRow, row.columns = columns := by
  unfold QueuedBuild.ofRow? at h
  split at h
  next job project nameSpace tags refProtected queuedAt =>
    simp only [Option.bind_eq_bind, Option.bind_eq_some_iff, Id.ofInt?_eq_some_iff,
      Instant.ofMicros?_eq_some_iff] at h
    obtain ⟨jobId, rfl, projectId, rfl, namespaceId, rfl, time, ⟨rfl, honWire⟩, -⟩ := h
    exact ⟨⟨jobId, projectId, namespaceId, tags, refProtected, time, honWire⟩, rfl⟩
  next => exact absurd h (by simp)

end Postgres.QueueRow

namespace QueuedBuild

/-- The row that a server sends for a build. -/
def toRow (build : QueuedBuild) : Postgres.Row :=
  [.ofId build.jobId, .ofId build.projectId, .ofId build.namespaceId, .texts build.tags.toList,
    .boolean build.refProtected, .ofInstant build.queuedAt]

theorem ofRow?_toRow {build : QueuedBuild} (h : build.queuedAt.OnWire) :
    ofRow? build.toRow = some build := by
  let row : Postgres.QueueRow := ⟨build.jobId, build.projectId, build.namespaceId,
    build.tags.toList, build.refProtected, build.queuedAt, h⟩
  have hbuild : row.build = build := by simp [row, Postgres.QueueRow.build]
  exact row.ofRow?_columns.trans (congrArg some hbuild)

/-- A page of builds is read as it was sent. -/
theorem rows_toRow {builds : List QueuedBuild} (h : ∀ b ∈ builds, b.queuedAt.OnWire) :
    Postgres.Answer.rows ofRow? (.ok (builds.map toRow)) = .ok builds :=
  Postgres.Answer.rows_map_self fun b hb ↦ ofRow?_toRow (h b hb)

end QueuedBuild

end BuildQueue
