import BuildQueue.Postgres.Lookup
import BuildQueue.Proofs.Engine.Isolation
import BuildQueue.Proofs.Postgres.Wire
import BuildQueue.Proofs.Store.Closure

/-!
# Scopes from any directory

A scope is resolved by at most two lookups of a directory. Whatever these come to, only a runner of
everything is given everything, and a lookup that fails leaves no projects at all. If none fails,
the scope is that of the set of records that were found. So directories over the same projects
resolve every runner to the same scope, whatever order they answer in and how often they repeat
themselves.
-/

namespace BuildQueue

/-- What answers the two lookups: the projects below a namespace and the records of projects. -/
structure Directory where
  descendants : NamespaceId → Except QueueError (List ProjectId)
  projects : List ProjectId → Except QueueError (List ProjectRecord)

/-- The error that a lookup was answered with. -/
def Exchange.lookupError? : Exchange → Option QueueError
  | ⟨.descendants .., some (.error e)⟩ => some e
  | ⟨.projects .., some (.error e)⟩ => some e
  | _ => none

/-- The records that a lookup was answered with. -/
def Exchange.records? : Exchange → Option (List ProjectRecord)
  | ⟨.projects .., some (.ok records)⟩ => some records
  | _ => none

/-- Whether a project is open to runners of this kind of scope. -/
def RunnerScope.accepts : RunnerScope → ProjectRecord → Bool
  | .everything => ProjectRecord.acceptsInstanceRunners
  | .group _ => ProjectRecord.acceptsGroupRunners
  | .project _ => ProjectRecord.acceptsProjectRunners

/-- A project is in scope if the scope is about it and its record is accepted. -/
theorem Store.inScope_iff {s : Store} {scope : RunnerScope} {project : ProjectId} :
    s.InScope scope project ↔ ∃ record, s.projects.find? project = some record ∧
      s.Owns scope project ∧ scope.accepts record = true := by
  cases scope with
  | everything => simp [Store.InScope, Store.Owns, RunnerScope.accepts]
  | group root =>
    constructor
    · rintro ⟨record, hfind, hwithin, haccepts⟩
      exact ⟨record, hfind, ⟨record, hfind, hwithin⟩, haccepts⟩
    · rintro ⟨record, hfind, ⟨record', hfind', hwithin⟩, haccepts⟩
      obtain rfl : record = record' := Option.some.inj (hfind.symm.trans hfind')
      exact ⟨record, hfind, hwithin, haccepts⟩
  | project ids => exact Iff.rfl

/-- Both lookups failed with the same error or found the same, in any order and with any repeats. -/
def SameFinding {α : Type} : Except QueueError (List α) → Except QueueError (List α) → Prop
  | .ok as, .ok bs => ∀ a, a ∈ as ↔ a ∈ bs
  | .error e, .error e' => e = e'
  | _, _ => False

namespace Resolution

/-- The ids of the accepted records are in scope, and no other projects are. -/
theorem exists_ofRecords (accepts : ProjectRecord → Bool) (records : List ProjectRecord) :
    ∃ ids, ofRecords accepts records = .projects ids ∧
      ∀ project, project ∈ ids ↔
        ∃ record ∈ records, record.id = project ∧ accepts record = true := by
  refine ⟨_, rfl, fun project ↦ ?_⟩
  simp only [OrderedSet.mem_ofList, List.mem_map, List.mem_filter]
  constructor
  · rintro ⟨record, ⟨hmem, haccepts⟩, hid⟩
    exact ⟨record, hmem, hid, haccepts⟩
  · rintro ⟨record, hmem, hid, haccepts⟩
    exact ⟨record, ⟨hmem, haccepts⟩, hid⟩

/-- Neither the order of the records nor how often they are repeated matters. -/
theorem ofRecords_eq {accepts : ProjectRecord → Bool} {records records' : List ProjectRecord}
    (h : ∀ r, r ∈ records ↔ r ∈ records') :
    ofRecords accepts records = ofRecords accepts records' := by
  apply congrArg ProjectScope.projects
  apply OrderedSet.ext_mem
  intro project
  simp only [OrderedSet.mem_ofList, List.mem_map, List.mem_filter, h]

end Resolution

namespace Directory

variable {d d' : Directory} {scope scope' : RunnerScope} {deadline : Deadline}

/-- The directory in service; nothing else is asked of it. -/
def handle (d : Directory) : Handler Unit
  | .descendants root _, s => (some (d.descendants root), s)
  | .projects ids _, s => (some (d.projects ids), s)
  | q, s => ((Store.empty.handle ⟨0, default⟩ .directScan q).1, s)

/-- What a scope is resolved to. -/
def resolve (d : Directory) (scope : RunnerScope) (deadline : Deadline) : Resolution :=
  ((scope.resolve deadline).run d.handle ()).1

/-- The lookups that are made for it. -/
def lookups (d : Directory) (scope : RunnerScope) (deadline : Deadline) : List Exchange :=
  (scope.resolve deadline).transcript d.handle ()

/-- The records that are found for a scope. -/
def found (d : Directory) : RunnerScope → Except QueueError (List ProjectRecord)
  | .everything => .ok []
  | .group root => d.descendants root >>= d.projects
  | .project ids => d.projects ids

/-! ## One directory -/

/-- How a scope is resolved: the lookups made for it and what they come to. -/
inductive Resolves (d : Directory) (deadline : Deadline) :
    RunnerScope → List Exchange → Resolution → Prop
  | everything : Resolves d deadline .everything [] (.scope .everything)
  | noDescendants {root : NamespaceId} {e : QueueError} (h : d.descendants root = .error e) :
    Resolves d deadline (.group root) [⟨.descendants root deadline, some (.error e)⟩]
      (.failed (.hierarchy e.message))
  | noGroup {root : NamespaceId} {ids : List ProjectId} {e : QueueError}
    (hroot : d.descendants root = .ok ids) (h : d.projects ids = .error e) :
    Resolves d deadline (.group root)
      [⟨.descendants root deadline, some (.ok ids)⟩, ⟨.projects ids deadline, some (.error e)⟩]
      (.failed (.hierarchy e.message))
  | group {root : NamespaceId} {ids : List ProjectId} {records : List ProjectRecord}
    (hroot : d.descendants root = .ok ids) (h : d.projects ids = .ok records) :
    Resolves d deadline (.group root)
      [⟨.descendants root deadline, some (.ok ids)⟩, ⟨.projects ids deadline, some (.ok records)⟩]
      (.scope (Resolution.ofRecords ProjectRecord.acceptsGroupRunners records))
  | noProject {ids : List ProjectId} {e : QueueError} (h : d.projects ids = .error e) :
    Resolves d deadline (.project ids) [⟨.projects ids deadline, some (.error e)⟩]
      (.failed (.hierarchy e.message))
  | project {ids : List ProjectId} {records : List ProjectRecord}
    (h : d.projects ids = .ok records) :
    Resolves d deadline (.project ids) [⟨.projects ids deadline, some (.ok records)⟩]
      (.scope (Resolution.ofRecords ProjectRecord.acceptsProjectRunners records))

theorem resolves (d : Directory) (scope : RunnerScope) (deadline : Deadline) :
    d.Resolves deadline scope (d.lookups scope deadline) (d.resolve scope deadline) := by
  cases scope with
  | everything => exact .everything
  | group root =>
    change d.Resolves deadline (.group root)
      (⟨.descendants root deadline, some (d.descendants root)⟩ ::
        (Resolution.ofLookup _ (some (d.descendants root))).transcript d.handle ())
      ((Resolution.ofLookup _ (some (d.descendants root))).run d.handle ()).1
    cases hroot : d.descendants root with
    | error e => exact .noDescendants hroot
    | ok ids =>
      change d.Resolves deadline (.group root)
        (⟨.descendants root deadline, some (.ok ids)⟩ ::
          ⟨.projects ids deadline, some (d.projects ids)⟩ ::
            (Resolution.ofLookup _ (some (d.projects ids))).transcript d.handle ())
        ((Resolution.ofLookup _ (some (d.projects ids))).run d.handle ()).1
      cases hids : d.projects ids with
      | error e => exact .noGroup hroot hids
      | ok records => exact .group hroot hids
  | project ids =>
    change d.Resolves deadline (.project ids)
      (⟨.projects ids deadline, some (d.projects ids)⟩ ::
        (Resolution.ofLookup _ (some (d.projects ids))).transcript d.handle ())
      ((Resolution.ofLookup _ (some (d.projects ids))).run d.handle ()).1
    cases hids : d.projects ids with
    | error e => exact .noProject hids
    | ok records => exact .project hids

namespace Resolves

variable {lookups : List Exchange} {resolution : Resolution}

theorem everything_iff (h : d.Resolves deadline scope lookups resolution) :
    (resolution = .scope .everything ↔ scope = .everything) ∧
      (scope = .everything → lookups = []) := by
  cases h <;> simp [Resolution.ofRecords, ProjectScope.ofList]

/-- A lookup that fails leaves no projects. -/
theorem failed (h : d.Resolves deadline scope lookups resolution) {e : QueueError}
    (he : e ∈ lookups.filterMap Exchange.lookupError?) :
    resolution = .failed (.hierarchy e.message) ∧ resolution.scopeOrEmpty = .empty := by
  cases h <;> simp_all [Exchange.lookupError?, Resolution.scopeOrEmpty]

/-- If no lookup fails, the scope is that of the records which the last one found. -/
theorem succeeded (h : d.Resolves deadline scope lookups resolution) (hne : scope ≠ .everything)
    (hnone : lookups.filterMap Exchange.lookupError? = []) :
    ∃ records, lookups.filterMap Exchange.records? = [records] ∧
      resolution = .scope (Resolution.ofRecords scope.accepts records) := by
  cases h with
  | everything => exact absurd rfl hne
  | noDescendants _ => simp [Exchange.lookupError?] at hnone
  | noGroup _ _ => simp [Exchange.lookupError?] at hnone
  | group _ _ => exact ⟨_, rfl, rfl⟩
  | noProject _ => simp [Exchange.lookupError?] at hnone
  | project _ => exact ⟨_, rfl, rfl⟩

/-- What was found decides what a scope comes to. -/
theorem eq_of_found (h : d.Resolves deadline scope lookups resolution) (hne : scope ≠ .everything) :
    resolution = match d.found scope with
      | .error e => .failed (.hierarchy e.message)
      | .ok records => .scope (Resolution.ofRecords scope.accepts records) := by
  cases h with
  | everything => exact absurd rfl hne
  | noDescendants h => simp [found, h, bind, Except.bind]
  | noGroup hroot h => simp [found, hroot, h, bind, Except.bind]
  | group hroot h => simp [found, hroot, h, bind, Except.bind, RunnerScope.accepts]
  | noProject h => simp [found, h]
  | project h => simp [found, h, RunnerScope.accepts]

end Resolves

/-- Scopes of one kind for which the same set of records is found come to the same. -/
theorem resolve_eq_of_sameFinding (hkind : scope.kind = scope'.kind)
    (hfound : SameFinding (d.found scope) (d'.found scope')) :
    d.resolve scope deadline = d'.resolve scope' deadline := by
  by_cases hne : scope = .everything
  · subst hne
    cases scope' with
    | everything => rfl
    | group root => simp [RunnerScope.kind] at hkind
    | project ids => simp [RunnerScope.kind] at hkind
  · have hne' : scope' ≠ .everything := by
      rintro rfl
      cases scope <;> simp_all [RunnerScope.kind]
    have haccepts : scope.accepts = scope'.accepts := by
      cases scope <;> cases scope' <;> simp_all [RunnerScope.kind, RunnerScope.accepts]
    rw [(d.resolves scope deadline).eq_of_found hne, (d'.resolves scope' deadline).eq_of_found hne']
    cases hfirst : d.found scope with
    | error e =>
      cases hsecond : d'.found scope' with
      | error e' =>
        rw [hfirst, hsecond] at hfound
        obtain rfl : e = e' := hfound
        rfl
      | ok records => simp [hfirst, hsecond, SameFinding] at hfound
    | ok records =>
      cases hsecond : d'.found scope' with
      | error e' => simp [hfirst, hsecond, SameFinding] at hfound
      | ok records' =>
        rw [hfirst, hsecond] at hfound
        simp only [Resolution.ofRecords_eq hfound, haccepts]

/-! ## Directories over the same projects -/

/-- The directory answers from the namespaces and projects of a store, in any order and with any
repeats. -/
structure Knows (d : Directory) (s : Store) : Prop where
  descendants : ∀ root, ∃ ids, d.descendants root = .ok ids ∧ ∀ id, id ∈ ids ↔
    ∃ record, s.projects.find? id = some record ∧ s.Within root record.namespaceId
  projects : ∀ ids, ∃ records, d.projects ids = .ok records ∧ ∀ record, record ∈ records ↔
    record.id ∈ ids ∧ s.projects.find? record.id = some record

namespace Knows

variable {s : Store}

/-- The records found are those of the projects that the scope is about. -/
theorem exists_found (h : d.Knows s) (hne : scope ≠ .everything) :
    ∃ records, d.found scope = .ok records ∧ ∀ record, record ∈ records ↔
      s.projects.find? record.id = some record ∧ s.Owns scope record.id := by
  cases scope with
  | everything => exact absurd rfl hne
  | group root =>
    obtain ⟨below, hbelow, hmemBelow⟩ := h.descendants root
    obtain ⟨records, hrecords, hmem⟩ := h.projects below
    refine ⟨records, ?_, fun record ↦ ?_⟩
    · change d.descendants root >>= d.projects = _
      rw [hbelow]
      exact hrecords
    · rw [hmem, hmemBelow, and_comm]
      rfl
  | project listed =>
    obtain ⟨records, hrecords, hmem⟩ := h.projects listed
    refine ⟨records, hrecords, fun record ↦ ?_⟩
    rw [hmem, and_comm]
    rfl

/-- Every scope but that of everything is resolved to the projects that are in scope. -/
theorem exists_scope (h : d.Knows s) (hsound : s.Sound) (hne : scope ≠ .everything)
    (deadline : Deadline) :
    ∃ ids, d.resolve scope deadline = .scope (.projects ids) ∧
      ∀ project, project ∈ ids ↔ s.InScope scope project := by
  obtain ⟨records, hfound, hmem⟩ := h.exists_found hne
  obtain ⟨ids, hids, hmemIds⟩ := Resolution.exists_ofRecords scope.accepts records
  refine ⟨ids, ?_, fun project ↦ ?_⟩
  · rw [(d.resolves scope deadline).eq_of_found hne, hfound, ← hids]
  rw [hmemIds, Store.inScope_iff]
  constructor
  · rintro ⟨record, hrecord, rfl, haccepts⟩
    obtain ⟨hfind, howns⟩ := (hmem record).1 hrecord
    exact ⟨record, hfind, howns, haccepts⟩
  · rintro ⟨record, hfind, howns, haccepts⟩
    have hid : record.id = project := hsound.project_id project record hfind
    subst hid
    exact ⟨record, (hmem record).2 ⟨hfind, howns⟩, rfl, haccepts⟩

/-- Two directories over the same projects resolve a scope to the same, also if it lists its
projects in another order or with repeats. -/
theorem resolve_eq (h : d.Knows s) (h' : d'.Knows s) (hkind : scope.kind = scope'.kind)
    (howns : ∀ project, s.Owns scope project ↔ s.Owns scope' project) (deadline : Deadline) :
    d.resolve scope deadline = d'.resolve scope' deadline := by
  apply resolve_eq_of_sameFinding hkind
  by_cases hne : scope = .everything
  · have hne' : scope' = .everything := by
      cases scope' <;> simp_all [RunnerScope.kind]
    subst hne hne'
    exact fun _ ↦ Iff.rfl
  · have hne' : scope' ≠ .everything := by
      rintro rfl
      cases scope <;> simp_all [RunnerScope.kind]
    obtain ⟨records, hfound, hmem⟩ := h.exists_found hne
    obtain ⟨records', hfound', hmem'⟩ := h'.exists_found hne'
    rw [hfound, hfound']
    intro record
    rw [hmem, hmem', howns]

end Knows

end Directory

/-! ## The two directories -/

namespace Store

/-- The directory that a store is: records come in the order asked for, as often as asked for. -/
def directory (s : Store) : Directory :=
  ⟨fun root ↦ .ok (s.descendantProjectIds root), fun ids ↦ .ok (s.projectRecords ids)⟩

/-- The store in service answers the lookups as its directory does. -/
theorem run_resolve (s : Store) (moment : Moment) (selected : StrategyKind) (scope : RunnerScope)
    (deadline : Deadline) :
    (scope.resolve deadline).run (Store.handle moment selected) s =
      (s.directory.resolve scope deadline, s) := by
  cases scope <;> rfl

theorem Sound.knows_directory {s : Store} (h : s.Sound) : s.directory.Knows s where
  descendants root := ⟨_, rfl, fun _ ↦ mem_descendantProjectIds h.project_id⟩
  projects ids := by
    refine ⟨_, rfl, fun record ↦ ?_⟩
    unfold projectRecords
    rw [List.mem_filterMap]
    constructor
    · rintro ⟨id, hmem, hfind⟩
      have hid : record.id = id := h.project_id id record hfind
      exact hid ▸ ⟨hmem, hfind⟩
    · rintro ⟨hmem, hfind⟩
      exact ⟨record.id, hmem, hfind⟩

end Store

namespace Postgres

/-- The row that a server sends for an id. -/
def idRow {r : Resource} (i : Id r) : Row := [.ofId i]

/-- The row that a server sends for a project. -/
def projectRow (p : ProjectRecord) : Row :=
  [.ofId p.id, .ofId p.namespaceId, .boolean p.buildsEnabled, .boolean p.sharedRunnersEnabled,
    .boolean p.groupRunnersEnabled, .boolean p.pendingDelete]

theorem ofRow?_idRow {r : Resource} (i : Id r) : Id.ofRow? (idRow i) = some i := by
  simp [idRow, Id.ofRow?, Value.ofId]

theorem ofRow?_projectRow (p : ProjectRecord) : ProjectRecord.ofRow? (projectRow p) = some p := by
  simp [projectRow, ProjectRecord.ofRow?, Value.ofId]

/-- The directory that a server is which answers every statement in this way. -/
def directory (answer : Statement → Answer) : Directory :=
  ⟨fun root ↦ ((descendants root).run (fun statement s ↦ (answer statement, s)) ()).1,
    fun ids ↦ ((projects ids).run (fun statement s ↦ (answer statement, s)) ()).1⟩

/-- The server has the namespaces and projects of a store in its tables. It lists the projects below
a namespace, and those of some ids, by their ids and each of them once. -/
structure Mirrors (answer : Statement → Answer) (s : Store) : Prop where
  descendants : ∀ root, ∃ ids : List ProjectId,
    answer (.descendants root) = .ok (ids.map idRow) ∧ Ascending ids ∧ ∀ id, id ∈ ids ↔
      ∃ record, s.projects.find? id = some record ∧ s.Within root record.namespaceId
  projects : ∀ ids, ∃ records : List ProjectRecord,
    answer (.projects ids) = .ok (records.map projectRow) ∧ Ascending (records.map (·.id)) ∧
      ∀ record, record ∈ records ↔ record.id ∈ ids ∧ s.projects.find? record.id = some record

theorem Mirrors.knows_directory {answer : Statement → Answer} {s : Store} (h : Mirrors answer s) :
    (directory answer).Knows s where
  descendants root := by
    obtain ⟨ids, hanswer, -, hmem⟩ := h.descendants root
    refine ⟨ids, ?_, hmem⟩
    change queueResult ((answer (.descendants root)).rows Id.ofRow?) = _
    rw [hanswer, Answer.rows_map_self fun id _ ↦ ofRow?_idRow id]
    rfl
  projects ids := by
    obtain ⟨records, hanswer, -, hmem⟩ := h.projects ids
    by_cases hempty : ids = []
    · refine ⟨[], by subst hempty; rfl, fun record ↦ ?_⟩
      simp [hempty]
    · refine ⟨records, ?_, hmem⟩
      have hask : Postgres.projects ids = .ask (.projects ids) fun answer ↦
          .done (queueResult (answer.rows ProjectRecord.ofRow?)) :=
        if_neg (by simpa using hempty)
      change ((Postgres.projects ids).run _ ()).1 = _
      rw [hask]
      change queueResult ((answer (.projects ids)).rows ProjectRecord.ofRow?) = _
      rw [hanswer, Answer.rows_map_self fun record _ ↦ ofRow?_projectRow record]
      rfl

end Postgres

/-- Whatever a directory answers, only a runner of everything is given everything, without any
lookup. If a lookup fails, resolving fails for that reason and the runner is left with no projects;
otherwise it is given the accepted ones of the records that were found, and these matter only as a
set. A store, and a server with the same tables, resolve every runner to the same scope: the known
projects in its group, or listed by it, that are enabled and not to be deleted, and for a group are
open to it. -/
theorem Directory.resolves_exactly (d : Directory) (runner : Runner) (deadline : Deadline)
    (ops : List StoreOperation) {answer : Postgres.Statement → Postgres.Answer}
    (hmirrors : Postgres.Mirrors answer (Store.after ops)) :
    let s := Store.after ops
    let resolution := d.resolve runner.scope deadline
    let lookups := d.lookups runner.scope deadline
    let server := Postgres.directory answer
    (resolution = .scope .everything ↔ runner.scope = .everything) ∧
    (runner.scope = .everything → lookups = []) ∧
    (∀ e ∈ lookups.filterMap Exchange.lookupError?,
      resolution = .failed (.hierarchy e.message) ∧ resolution.scopeOrEmpty = .empty) ∧
    (runner.scope ≠ .everything → lookups.filterMap Exchange.lookupError? = [] →
      ∃ records ids, lookups.filterMap Exchange.records? = [records] ∧
        resolution = .scope (.projects ids) ∧ ∀ project, project ∈ ids ↔
          ∃ record ∈ records, record.id = project ∧ runner.scope.accepts record = true) ∧
    (∀ (d' : Directory) (scope : RunnerScope), scope.kind = runner.scope.kind →
      SameFinding (d'.found scope) (d.found runner.scope) →
        d'.resolve scope deadline = resolution) ∧
    (∀ moment selected,
      ((runner.scope.resolve deadline).run (Store.handle moment selected) s).1 =
        server.resolve runner.scope deadline) ∧
    (∀ listed listed', runner.scope = .project listed → (∀ id, id ∈ listed' ↔ id ∈ listed) →
      server.resolve (.project listed') deadline = server.resolve runner.scope deadline ∧
        s.directory.resolve (.project listed') deadline =
          s.directory.resolve runner.scope deadline) ∧
    (runner.scope ≠ .everything →
      ∃ ids, server.resolve runner.scope deadline = .scope (.projects ids) ∧
        ∀ project, project ∈ ids ↔ ∃ record, s.projects.find? project = some record ∧
          record.buildsEnabled = true ∧ record.pendingDelete = false ∧
          (∀ root, runner.scope = .group root →
            s.Within root record.namespaceId ∧ record.groupRunnersEnabled = true) ∧
          ∀ listed, runner.scope = .project listed → project ∈ listed) := by
  intro s resolution lookups server
  have hsound : s.Sound := Store.sound_after ops
  have hresolves : d.Resolves deadline runner.scope lookups resolution := d.resolves _ _
  have hserver : server.Knows s := hmirrors.knows_directory
  have hstore : s.directory.Knows s := hsound.knows_directory
  refine ⟨hresolves.everything_iff.1, hresolves.everything_iff.2, fun e he ↦ hresolves.failed he,
    ?_, fun d' scope hkind hfound ↦ Directory.resolve_eq_of_sameFinding hkind hfound, ?_, ?_, ?_⟩
  · intro hne hnone
    obtain ⟨records, hrecords, hresolution⟩ := hresolves.succeeded hne hnone
    obtain ⟨ids, hids, hmem⟩ := Resolution.exists_ofRecords runner.scope.accepts records
    exact ⟨records, ids, hrecords, hids ▸ hresolution, hmem⟩
  · intro moment selected
    rw [Store.run_resolve]
    exact hstore.resolve_eq hserver rfl (fun _ ↦ Iff.rfl) deadline
  · intro listed listed' hlisted hsame
    rw [hlisted]
    have hkind : (RunnerScope.project listed').kind = (RunnerScope.project listed).kind := rfl
    have howns : ∀ project, s.Owns (.project listed') project ↔ s.Owns (.project listed) project :=
      hsame
    exact ⟨hserver.resolve_eq hserver hkind howns deadline,
      hstore.resolve_eq hstore hkind howns deadline⟩
  · intro hne
    obtain ⟨ids, hids, hmem⟩ := hserver.exists_scope hsound hne deadline
    refine ⟨ids, hids, fun project ↦ ?_⟩
    rw [hmem]
    unfold Store.InScope ProjectRecord.acceptsGroupRunners ProjectRecord.acceptsProjectRunners
    cases hscope : runner.scope with
    | everything => exact absurd hscope hne
    | group root => simp [and_assoc, and_left_comm, and_comm]
    | project listed => simp [and_assoc, and_comm]

namespace Store

/-- What a server answers that has the namespaces and projects of a store in its tables. -/
def answer (s : Store) : Postgres.Statement → Postgres.Answer
  | .descendants root => .ok ((s.descendantProjectIds root).map Postgres.idRow)
  | .projects ids => .ok ((s.projects.values.filter (·.id ∈ ids)).map Postgres.projectRow)
  | _ => .ok []

theorem Sound.mirrors_answer {s : Store} (h : s.Sound) : Postgres.Mirrors s.answer s where
  descendants root :=
    ⟨_, rfl, h.descendantProjectIds_ascending root, fun _ ↦ mem_descendantProjectIds h.project_id⟩
  projects ids := by
    refine ⟨_, rfl, ?_, fun record ↦ ?_⟩
    · exact h.ascending_ids.sublist (List.filter_sublist.map _)
    · rw [List.mem_filter, decide_eq_true_iff, Table.mem_values, and_comm]
      refine and_congr_right fun _ ↦ ⟨?_, fun hfind ↦ ⟨_, hfind⟩⟩
      rintro ⟨id, hfind⟩
      have hid : record.id = id := h.project_id id record hfind
      exact hid ▸ hfind

end Store

/-- Lists a project of every group but cannot read its record. -/
def Directory.broken : Directory := ⟨fun _ ↦ .ok [⟨10⟩], fun _ ↦ .error (.backend "disk full")⟩

theorem Directory.resolves_exactly_broken :
    let s := Store.after Store.tangled
    let scope := RunnerScope.group ⟨1⟩
    let server := Postgres.directory s.answer
    Postgres.Mirrors s.answer s ∧
      (Directory.broken.resolve scope none =
          .failed (.hierarchy "queue backend unavailable: disk full") ∧
        (Directory.broken.resolve scope none).scopeOrEmpty = .empty) ∧
      (∀ moment selected,
        ((scope.resolve none).run (Store.handle moment selected) s).1 = server.resolve scope none) ∧
      server.resolve scope none = .scope (.ofList [⟨20⟩, ⟨10⟩]) := by
  intro s scope server
  have hmirrors : Postgres.Mirrors s.answer s := (Store.sound_after Store.tangled).mirrors_answer
  have hlookup : QueueError.backend "disk full" ∈
      (Directory.broken.lookups scope none).filterMap Exchange.lookupError? := by decide
  obtain ⟨-, -, hfailed, -, -, hsame, -⟩ :=
    Directory.resolves_exactly .broken (Runner.ofGroup ⟨1⟩) none Store.tangled hmirrors
  exact ⟨hmirrors, hfailed _ hlookup, hsame, by decide⟩

end BuildQueue
