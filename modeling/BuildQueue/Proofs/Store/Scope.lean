import BuildQueue.Engine.Scope
import BuildQueue.Proofs.Store.Hierarchy
import BuildQueue.Proofs.Store.Sound

/-!
# The scope of a runner at a store

What a runner's scope resolves to at a store admits exactly the projects whose current record is
open to this kind of runner and, for a group, whose namespace lies in the group.
-/

namespace BuildQueue.Store

/-- What the scope of a runner resolves to when both lookups come from one store. -/
def scopeOf (s : Store) : RunnerScope → ProjectScope
  | .everything => .everything
  | .group root =>
    .ofList (((s.projectRecords (s.descendantProjectIds root)).filter
      ProjectRecord.acceptsGroupRunners).map (·.id))
  | .project ids =>
    .ofList (((s.projectRecords ids).filter ProjectRecord.acceptsProjectRunners).map (·.id))

/-- A project whose builds a runner of this scope may take. -/
def InScope (s : Store) (scope : RunnerScope) (project : ProjectId) : Prop :=
  ∃ record, s.projects.find? project = some record ∧
    match scope with
    | .everything => record.acceptsInstanceRunners = true
    | .group root => s.Within root record.namespaceId ∧ record.acceptsGroupRunners = true
    | .project ids => project ∈ ids ∧ record.acceptsProjectRunners = true

variable {s : Store}

/-- The ids of some known projects are looked up and those of the accepted records are kept. -/
theorem Sound.mem_ofRecords (h : s.Sound) {ids : List ProjectId} {accepts : ProjectRecord → Bool}
    {project : ProjectId} :
    project ∈ ((s.projectRecords ids).filter accepts).map (·.id) ↔
      ∃ record, s.projects.find? project = some record ∧ project ∈ ids ∧
        accepts record = true := by
  unfold projectRecords
  simp only [List.mem_map, List.mem_filter, List.mem_filterMap]
  constructor
  · rintro ⟨record, ⟨⟨id, hmem, hfound⟩, haccepts⟩, rfl⟩
    have hid : record.id = id := h.project_id id record hfound
    rw [hid]
    exact ⟨record, hfound, hmem, haccepts⟩
  · rintro ⟨record, hfound, hmem, haccepts⟩
    exact ⟨record, ⟨⟨project, hmem, hfound⟩, haccepts⟩, h.project_id project record hfound⟩

theorem Sound.admits_scopeOf (h : s.Sound) (scope : RunnerScope) (project : ProjectId) :
    (s.scopeOf scope).admits project (s.openToInstance project) = true ↔
      s.InScope scope project := by
  cases scope with
  | everything =>
    unfold scopeOf InScope ProjectScope.admits openToInstance
    rw [Option.any_eq_true_iff_get]
    constructor
    · rintro ⟨hsome, haccepts⟩
      exact ⟨_, Option.some_get hsome |>.symm, haccepts⟩
    · rintro ⟨record, hfound, haccepts⟩
      exact ⟨by simp [hfound], by simpa [hfound] using haccepts⟩
  | group root =>
    unfold scopeOf InScope ProjectScope.ofList ProjectScope.admits
    rw [decide_eq_true_iff, OrderedSet.mem_ofList, h.mem_ofRecords]
    constructor
    · rintro ⟨record, hfound, hmem, haccepts⟩
      obtain ⟨record', hfound', hwithin⟩ := (mem_descendantProjectIds h.project_id).1 hmem
      rw [hfound, Option.some.injEq] at hfound'
      rw [← hfound'] at hwithin
      exact ⟨record, hfound, hwithin, haccepts⟩
    · rintro ⟨record, hfound, hwithin, haccepts⟩
      exact ⟨record, hfound, (mem_descendantProjectIds h.project_id).2 ⟨record, hfound, hwithin⟩,
        haccepts⟩
  | project ids =>
    unfold scopeOf InScope ProjectScope.ofList ProjectScope.admits
    rw [decide_eq_true_iff, OrderedSet.mem_ofList, h.mem_ofRecords]

/-- Two stores with the same projects in scope give the scope the same meaning. -/
theorem Sound.scopeOf_eq {t : Store} (h : s.Sound) (ht : t.Sound) {scope : RunnerScope}
    (hscope : ∀ project, s.InScope scope project ↔ t.InScope scope project) :
    s.scopeOf scope = t.scopeOf scope := by
  have hadmits (project : ProjectId) :
      (s.scopeOf scope).admits project (s.openToInstance project) = true ↔
        (t.scopeOf scope).admits project (t.openToInstance project) = true := by
    rw [h.admits_scopeOf, ht.admits_scopeOf, hscope]
  cases scope with
  | everything => rfl
  | group root =>
    apply congrArg ProjectScope.projects
    apply OrderedSet.ext_mem
    simpa [scopeOf, ProjectScope.ofList, ProjectScope.admits] using hadmits
  | project ids =>
    apply congrArg ProjectScope.projects
    apply OrderedSet.ext_mem
    simpa [scopeOf, ProjectScope.ofList, ProjectScope.admits] using hadmits

end BuildQueue.Store
