import BuildQueue.Postgres.Connection
import BuildQueue.Proofs.Postgres.Paging
import Mathlib.Data.List.Infix
import Mathlib.Data.Set.List
import Mathlib.Order.Bounds.Defs

/-!
# Reading no further than asked

A consumer pulls items of the queue one by one. Whatever the server delivers, pages of any length
and in any order or errors, it is sent a further statement only when the page before was full and
the consumer pulls beyond its last row.
-/

namespace BuildQueue.Postgres

/-- The key of the next page, where this row is the last one. -/
def QueueRow.key (row : QueueRow) : QueueKey := ⟨row.queuedAt, row.jobId⟩

/-- What the server delivers for one statement. -/
inductive Delivery where
  | page (rows : List QueueRow)
  /-- Rows that do not all have the columns of the statement. -/
  | unreadable (rows : List Row) (h : ∃ row ∈ rows, QueuedBuild.ofRow? row = none)
  | failure (e : StatementError)

namespace Delivery

def answer : Delivery → Answer
  | page rows => .ok (rows.map QueueRow.columns)
  | unreadable rows _ => .ok rows
  | failure e => .error e

/-- Every answer is a delivery. -/
theorem answer_surjective : Function.Surjective answer := by
  intro answer
  cases answer with
  | error e => exact ⟨failure e, rfl⟩
  | ok rows =>
    by_cases hnone : ∃ row ∈ rows, QueuedBuild.ofRow? row = none
    · exact ⟨unreadable rows hnone, rfl⟩
    · have hrows : rows ∈ Set.range (List.map QueueRow.columns) := by
        rw [Set.range_list_map]
        intro row hmem
        cases hread : QueuedBuild.ofRow? row with
        | none => exact absurd ⟨row, hmem, hread⟩ hnone
        | some build => exact QueueRow.exists_of_ofRow? hread
      obtain ⟨pageRows, hcolumns⟩ := hrows
      exact ⟨page pageRows, congrArg Except.ok hcolumns⟩

/-- The items of the feed that come from the delivery. -/
def items : Delivery → List FeedEntry
  | page rows => rows.map fun row ↦ .ok row.build
  | unreadable _ _ => [.error StatementError.unexpectedRow.toQueueError]
  | failure e => [.error e.toQueueError]

/-- The delivery is a page of at least so many rows. -/
def IsFull (limit : Nat) : Delivery → Prop
  | page rows => limit ≤ rows.length
  | _ => False

def last? : Delivery → Option QueueRow
  | page rows => rows.getLast?
  | _ => none

end Delivery

variable {limit m k : Nat} {script : List Delivery}

/-- The items of the first deliveries. -/
def itemsUpTo (script : List Delivery) (n : Nat) : List FeedEntry :=
  (script.take n).flatMap Delivery.items

def IsFullAt (limit : Nat) (script : List Delivery) (i : Nat) : Prop :=
  ∃ delivery, script[i]? = some delivery ∧ delivery.IsFull limit

/-- The row that a page starts after: the last one of the page before. -/
def rowBefore? (first : Option QueueRow) (script : List Delivery) : Nat → Option QueueRow
  | 0 => first
  | i + 1 => script[i]?.bind Delivery.last?

theorem rowBefore?_cons (first : Option QueueRow) (delivery : Delivery) (script : List Delivery)
    (i : Nat) :
    rowBefore? first (delivery :: script) (i + 1) = rowBefore? delivery.last? script i := by
  cases i <;> rfl

@[simp] theorem itemsUpTo_zero : itemsUpTo script 0 = [] := rfl

@[simp] theorem itemsUpTo_cons (delivery : Delivery) (script : List Delivery) (n : Nat) :
    itemsUpTo (delivery :: script) (n + 1) = delivery.items ++ itemsUpTo script n := by
  simp [itemsUpTo]

@[simp] theorem isFullAt_cons_zero (delivery : Delivery) (script : List Delivery) :
    IsFullAt limit (delivery :: script) 0 ↔ delivery.IsFull limit := by
  simp [IsFullAt]

@[simp] theorem isFullAt_cons_succ (delivery : Delivery) (script : List Delivery) (i : Nat) :
    IsFullAt limit (delivery :: script) (i + 1) ↔ IsFullAt limit script i := by
  simp [IsFullAt]

theorem itemsUpTo_mono (script : List Delivery) {n n' : Nat} (h : n ≤ n') :
    itemsUpTo script n <+: itemsUpTo script n' :=
  List.IsPrefix.flatMap (List.take_prefix_take_left h) _

theorem itemsUpTo_one (script : List Delivery) :
    itemsUpTo script 1 = (script.headD (.page [])).items := by
  cases script with
  | nil => rfl
  | cons delivery script => simp

theorem isFullAt_zero_iff (hlimit : 1 ≤ limit) :
    IsFullAt limit script 0 ↔ (script.headD (.page [])).IsFull limit := by
  cases script with
  | nil =>
    have hempty : ¬(Delivery.page []).IsFull limit := Nat.not_le.2 hlimit
    simpa [IsFullAt] using hempty
  | cons delivery script => simp

/-- So many statements are sent to a consumer that pulls `m` items. -/
structure Asked (limit : Nat) (script : List Delivery) (m k : Nat) : Prop where
  first : 0 < k ↔ 0 < m
  further : ∀ i, i + 1 < k ↔
    i < k ∧ IsFullAt limit script i ∧ (itemsUpTo script (i + 1)).length < m

namespace Asked

theorem nothing : Asked limit script 0 0 := ⟨Iff.rfl, by simp⟩

theorem last (hm : 0 < m)
    (hend : ¬IsFullAt limit script 0 ∨ m ≤ (itemsUpTo script 1).length) :
    Asked limit script m 1 where
  first := iff_of_true Nat.one_pos hm
  further i := by
    constructor
    · omega
    · rintro ⟨hi, hfull, hmore⟩
      obtain rfl : i = 0 := Nat.lt_one_iff.1 hi
      rcases hend with hnot | hle
      · exact absurd hfull hnot
      · exact absurd hmore (Nat.not_lt.2 hle)

theorem cons {delivery : Delivery} (hfull : delivery.IsFull limit) (hm : 0 < m)
    (h : Asked limit script (m - delivery.items.length) k) :
    Asked limit (delivery :: script) m (k + 1) where
  first := iff_of_true k.succ_pos hm
  further i := by
    rw [itemsUpTo_cons, List.length_append]
    cases i with
    | zero =>
      have hfirst := h.first
      simp only [isFullAt_cons_zero, itemsUpTo_zero, List.length_nil, hfull, true_and]
      omega
    | succ i =>
      rw [Nat.add_lt_add_iff_right, h.further i, isFullAt_cons_succ]
      exact and_congr (Nat.add_lt_add_iff_right).symm (and_congr_right fun _ ↦ by omega)

/-- It is the least number of deliveries that have the items, if any number has them. -/
theorem isLeast (h : Asked limit script m k) (hitems : m ≤ (itemsUpTo script k).length) :
    IsLeast {n | m ≤ (itemsUpTo script n).length} k := by
  refine ⟨hitems, fun n (hn : m ≤ (itemsUpTo script n).length) ↦ ?_⟩
  by_contra hlt
  cases n with
  | zero =>
    have hfirst := h.first
    rw [itemsUpTo_zero, List.length_nil] at hn
    omega
  | succ i =>
    obtain ⟨-, -, hless⟩ := (h.further i).1 (Nat.lt_of_not_le hlt)
    exact Nat.not_lt.2 hn hless

/-- A consumer that wants more is sent all statements up to the first delivery that is not full. -/
theorem eq_of_lt (h : Asked limit script m k) {i : Nat}
    (hfull : ∀ j < i, IsFullAt limit script j) (hnot : ¬IsFullAt limit script i)
    (hmore : (itemsUpTo script (i + 1)).length < m) : k = i + 1 := by
  have hle : k ≤ i + 1 := by
    by_contra hlt
    exact hnot ((h.further i).1 (Nat.lt_of_not_le hlt)).2.1
  have hreach : ∀ j ≤ i, j < k := by
    intro j hj
    induction j with
    | zero => exact h.first.2 (Nat.zero_lt_of_lt hmore)
    | succ j ih =>
      have hshorter : (itemsUpTo script (j + 1)).length ≤ (itemsUpTo script (i + 1)).length :=
        (itemsUpTo_mono script (Nat.le_succ_of_le hj)).length_le
      exact (h.further j).2 ⟨ih (Nat.le_of_succ_le hj), hfull j hj,
        Nat.lt_of_le_of_lt hshorter hmore⟩
  exact Nat.le_antisymm hle (hreach i (Nat.le_refl i))

end Asked

/-! ## Feeds -/

theorem nextPage?_map_build (limit : Nat) (rows : List QueueRow) :
    nextPage? limit (rows.map QueueRow.build) =
      if limit ≤ rows.length then rows.getLast?.map QueueRow.key else none := by
  unfold nextPage?
  rw [List.length_map, List.getLast?_map, Option.map_map]
  rfl

namespace Delivery

variable {σ : Type} (handle : Handler σ) {delivery : Delivery}

/-- The feed of a delivery. After a full page it goes on from the key of the last row. -/
def feed (limit : Nat) (next : QueueKey → Feed) : Delivery → Feed
  | page rows => pageFeed limit next (rows.map QueueRow.build)
  | unreadable _ _ => .item (.error StatementError.unexpectedRow.toQueueError) .done
  | failure e => .item (.error e.toQueueError) .done

/-- Reading ends on a delivery, either within it or because it is the last one. -/
theorem run_feed_last (hend : ¬delivery.IsFull limit ∨ m < delivery.items.length)
    (next : QueueKey → Feed) (s : σ) :
    ((delivery.feed limit next).readUpTo m).run handle s = (⟨delivery.items.take m, false⟩, s) := by
  cases delivery with
  | unreadable | failure =>
    cases m with
    | zero => rfl
    | succ m =>
      rw [List.take_of_length_le (Nat.le_add_left 1 m)]
      rfl
  | page rows =>
    have hitems : (page rows).items = (rows.map QueueRow.build).map .ok := by
      rw [List.map_map]
      rfl
    rw [hitems] at hend ⊢
    rw [List.length_map] at hend
    by_cases hlong : m < (rows.map QueueRow.build).length
    · rw [feed, pageFeed, Feed.run_readUpTo_ofBuilds_of_lt _ hlong, List.map_take]
    · have hshort : ¬limit ≤ rows.length := hend.resolve_right hlong
      rw [feed, pageFeed, nextPage?_map_build, if_neg hshort,
        Feed.run_readUpTo_ofBuilds _ (Nat.le_of_not_lt hlong), List.take_of_length_le]
      · exact congrArg (fun entries ↦ (FeedReading.mk entries false, s)) (List.append_nil _)
      · rw [List.length_map]
        exact Nat.le_of_not_lt hlong

/-- A full page is read to its end, and then what comes after its last row. -/
theorem run_feed_full (hlimit : 1 ≤ limit) (hfull : delivery.IsFull limit)
    (hle : delivery.items.length ≤ m) (next : QueueKey → Feed) (s : σ) :
    ∃ row, delivery.last? = some row ∧
      ((delivery.feed limit next).readUpTo m).run handle s =
        let rest := ((next row.key).readUpTo (m - delivery.items.length)).run handle s
        (⟨delivery.items ++ rest.1.entries, rest.1.stalled⟩, rest.2) := by
  cases delivery with
  | unreadable | failure => exact hfull.elim
  | page rows =>
    have hne : rows ≠ [] := List.ne_nil_of_length_pos (Nat.lt_of_lt_of_le hlimit hfull)
    have hlast : rows.getLast? = some (rows.getLast hne) := List.getLast?_eq_some_getLast hne
    have hlength : (page rows).items.length = (rows.map QueueRow.build).length := by
      simp [items]
    rw [hlength] at hle ⊢
    refine ⟨rows.getLast hne, hlast, ?_⟩
    have hpage : limit ≤ rows.length := hfull
    rw [feed, pageFeed, nextPage?_map_build, if_pos hpage, hlast, Option.map_some,
      Feed.run_readUpTo_ofBuilds _ hle, List.map_map]
    rfl

end Delivery

/-! ## Connections -/

/-- The statement for the page after a row. -/
def pageStatement (strategy : StrategyKind) (cutoff : Instant) (limit : Nat)
    (within : Option (List ProjectId)) (row? : Option QueueRow) : Statement :=
  .queue strategy cutoff (row?.map QueueRow.key) limit within

/-- The connection when the statement is answered and this is left of the script. -/
def Connection.answered (c : Connection) (s : Statement) (script : List Delivery) : Connection :=
  { c with server := ⟨script.map Delivery.answer, s :: c.server.received⟩ }

theorem Connection.log_answered (c : Connection) (s : Statement) (script : List Delivery) :
    (c.answered s script).server.log = c.server.log ++ [s] := List.reverse_cons

/-- A run in which a consumer pulls `m` items, the first page being the one after a row. -/
structure Follows (limit : Nat) (script : List Delivery) (m : Nat)
    (statement : Option QueueRow → Statement) (first : Option QueueRow) (c : Connection)
    (run : FeedReading × Connection) (k : Nat) : Prop where
  asked : Asked limit script m k
  reading : run.1 = ⟨(itemsUpTo script k).take m, false⟩
  log : run.2.server.log =
    c.server.log ++ (List.range k).map fun i ↦ statement (rowBefore? first script i)

section

variable (strategy : StrategyKind) (cutoff : Instant) (within : Option (List ProjectId))
  {c : Connection}

/-- When the script is used up the server delivers an empty page. -/
theorem run_pages_answered (hanswers : c.server.answers = script.map Delivery.answer)
    (limit count : Nat) (row? : Option QueueRow) (m : Nat) :
    ((pages strategy cutoff limit within (count + 1) (row?.map QueueRow.key)).readUpTo (m + 1)).run
        Connection.handle c =
      (((script.headD (.page [])).feed limit fun key ↦
        pages strategy cutoff limit within count (some key)).readUpTo (m + 1)).run
          Connection.handle
          (c.answered (pageStatement strategy cutoff limit within row?) script.tail) := by
  have hanswer : Connection.handle
      (.statement (pageStatement strategy cutoff limit within row?) none) c =
        (some (script.headD (.page [])).answer,
          c.answered (pageStatement strategy cutoff limit within row?) script.tail) := by
    obtain ⟨⟨answers, received⟩, selected, pageSize, tick, time⟩ := c
    obtain rfl : answers = script.map Delivery.answer := hanswers
    cases script <;> rfl
  generalize script.headD (.page []) = delivery at hanswer ⊢
  cases delivery with
  | page rows =>
    exact run_pages_of_rows hanswer (Answer.rows_map fun row _ ↦ row.ofRow?_columns) count m
  | unreadable rows h => exact run_pages_of_error hanswer (Answer.rows_of_none h) count m
  | failure e => exact run_pages_of_error hanswer rfl count m

variable {statement : Option QueueRow → Statement} {first : Option QueueRow}
  {run : FeedReading × Connection}

namespace Follows

theorem nothing : Follows limit script 0 statement first c (⟨[], false⟩, c) 0 :=
  ⟨.nothing, rfl, (List.append_nil _).symm⟩

theorem last (hm : 0 < m) (hend : ¬IsFullAt limit script 0 ∨ m ≤ (itemsUpTo script 1).length) :
    Follows limit script m statement first c
      (⟨(itemsUpTo script 1).take m, false⟩, c.answered (statement first) script.tail) 1 :=
  ⟨.last hm hend, rfl, c.log_answered _ _⟩

theorem cons {delivery : Delivery} (hfull : delivery.IsFull limit) (hm : 0 < m)
    (hle : delivery.items.length ≤ m)
    (h : Follows limit script (m - delivery.items.length) statement delivery.last?
      (c.answered (statement first) script) run k) :
    Follows limit (delivery :: script) m statement first c
      (⟨delivery.items ++ run.1.entries, run.1.stalled⟩, run.2) (k + 1) where
  asked := h.asked.cons hfull hm
  reading := by
    rw [h.reading, itemsUpTo_cons, List.take_append, List.take_of_length_le hle]
  log := by
    have hrows : ∀ i, rowBefore? first (delivery :: script) (i + 1) =
        rowBefore? delivery.last? script i := rowBefore?_cons first delivery script
    rw [h.log, c.log_answered, List.range_succ_eq_map, List.map_cons, List.map_map,
      List.append_assoc, List.singleton_append]
    simp only [Function.comp_def, Nat.succ_eq_add_one, hrows]
    rfl

end Follows

/-- Reading ends on the first page. -/
theorem follows_pages_last (hlimit : 1 ≤ limit)
    (hanswers : c.server.answers = script.map Delivery.answer) (first : Option QueueRow)
    (count : Nat) (hend : ¬IsFullAt limit script 0 ∨ m + 1 < (itemsUpTo script 1).length) :
    Follows limit script (m + 1) (pageStatement strategy cutoff limit within) first c
      (((pages strategy cutoff limit within (count + 1) (first.map QueueRow.key)).readUpTo
        (m + 1)).run Connection.handle c) 1 := by
  have hfollows : Follows limit script (m + 1) (pageStatement strategy cutoff limit within) first c
      _ 1 := .last m.succ_pos (hend.imp_right Nat.le_of_lt)
  rw [isFullAt_zero_iff hlimit, itemsUpTo_one] at hend
  rw [run_pages_answered strategy cutoff within hanswers, Delivery.run_feed_last _ hend,
    ← itemsUpTo_one]
  exact hfollows

/-- Each further page is one of a feed with one page less and a script with one delivery less, so
no feed with more pages than the script has deliveries comes to its last page. -/
theorem follows_pages (hlimit : 1 ≤ limit) {count : Nat} (hcount : script.length < count)
    (hanswers : c.server.answers = script.map Delivery.answer) (first : Option QueueRow) (m : Nat) :
    ∃ k, Follows limit script m (pageStatement strategy cutoff limit within) first c
      (((pages strategy cutoff limit within count (first.map QueueRow.key)).readUpTo m).run
        Connection.handle c) k := by
  induction script generalizing count c first m with
  | nil =>
    obtain ⟨count, rfl⟩ := Nat.exists_eq_add_of_lt hcount
    cases m with
    | zero => exact ⟨0, .nothing⟩
    | succ m =>
      -- The script is used up, and the empty page that is delivered then is never full.
      have hnot : ¬IsFullAt limit [] 0 := by simp [IsFullAt]
      exact ⟨1, follows_pages_last strategy cutoff within hlimit hanswers first _ (.inl hnot)⟩
  | cons delivery script ih =>
    obtain ⟨count, rfl⟩ := Nat.exists_eq_add_one_of_ne_zero (Nat.ne_zero_of_lt hcount)
    cases m with
    | zero => exact ⟨0, .nothing⟩
    | succ m =>
      by_cases hmore : delivery.IsFull limit ∧ delivery.items.length ≤ m + 1
      · -- The consumer may want nothing beyond this page; the rest is then read for no items.
        obtain ⟨hfull, hle⟩ := hmore
        obtain ⟨row, hrow, hrun⟩ := Delivery.run_feed_full Connection.handle hlimit hfull hle
          (fun key ↦ pages strategy cutoff limit within count (some key))
          (c.answered (pageStatement strategy cutoff limit within first) script)
        obtain ⟨k, hfollows⟩ := ih (Nat.lt_of_succ_lt_succ hcount)
          (c := c.answered (pageStatement strategy cutoff limit within first) script) rfl
          delivery.last? (m + 1 - delivery.items.length)
        have hkey : delivery.last?.map QueueRow.key = some row.key := by
          rw [hrow]
          rfl
        rw [hkey] at hfollows
        refine ⟨k + 1, ?_⟩
        rw [run_pages_answered strategy cutoff within hanswers, List.headD_cons, List.tail_cons,
          hrun]
        exact .cons hfull m.succ_pos hle hfollows
      · have hend : ¬IsFullAt limit (delivery :: script) 0 ∨
            m + 1 < (itemsUpTo (delivery :: script) 1).length := by
          rw [isFullAt_cons_zero, itemsUpTo_one]
          exact (not_and_or.1 hmore).imp_right Nat.lt_of_not_le
        exact ⟨1, follows_pages_last strategy cutoff within hlimit hanswers first count hend⟩

end

/-! ## Pulling items -/

/-- A consumer that fetches the queue of a scope and pulls so many items. -/
def pull (strategy : StrategyKind) (scope : ProjectScope) (cutoff : Instant) (most : Nat) :
    Program FeedReading :=
  .ask (.fetch strategy scope cutoff) fun feed ↦ feed.readUpTo most

theorem run_pull_empty {scope : ProjectScope} (hscope : scope.isEmpty = true)
    (strategy : StrategyKind) (cutoff : Instant) (m : Nat) (c : Connection) :
    (pull strategy scope cutoff m).run Connection.handle c = (.finished, c) := by
  change ((c.feed strategy scope cutoff).readUpTo m).run Connection.handle c = _
  rw [Connection.feed, queueFeed, if_pos hscope]
  rfl

theorem follows_pull {scope : ProjectScope} (hscope : scope.isEmpty = false)
    (strategy : StrategyKind) (cutoff : Instant) (m : Nat) {c : Connection}
    (hanswers : c.server.answers = script.map Delivery.answer) :
    ∃ k, Follows (pageLimit c.pageSize) script m
      (pageStatement strategy cutoff (pageLimit c.pageSize) scope.projectIds?) none c
      ((pull strategy scope cutoff m).run Connection.handle c) k := by
  have hlimit : 1 ≤ pageLimit c.pageSize := by
    unfold pageLimit
    omega
  have hcount : script.length < c.server.answers.length + 1 := by
    rw [hanswers, List.length_map]
    exact Nat.lt_succ_self _
  have hpull : (pull strategy scope cutoff m).run Connection.handle c =
      ((pages strategy cutoff (pageLimit c.pageSize) scope.projectIds?
        (c.server.answers.length + 1) none).readUpTo m).run Connection.handle c := by
    change ((c.feed strategy scope cutoff).readUpTo m).run Connection.handle c = _
    rw [Connection.feed, queueFeed, hscope]
    rfl
  rw [hpull]
  exact follows_pages strategy cutoff scope.projectIds? hlimit hcount hanswers none m

/-- The statement of a strategy over everything or over listed projects. -/
def queueName : StrategyKind → ProjectScope → String
  | .directScan, .everything => "builds_queue_instance"
  | .directScan, .projects _ => "builds_queue_projects"
  | .projection, .everything => "pending_queue_instance"
  | .projection, .projects _ => "pending_queue_projects"

/-- Where a page starts: after the last row of the page before, which the first page does not
have. -/
def startParameters : Option QueueRow → List Value
  | none => [.null, .null]
  | some row => [.ofInstant row.queuedAt, .ofId row.jobId]

def scopeParameters : ProjectScope → List Value
  | .everything => []
  | .projects ids => [.ofIds ids.toList]

/-- The statement as the server receives it. -/
def Statement.wire (s : Statement) : String × List Value := (s.name, s.parameters)

theorem wire_pageStatement (strategy : StrategyKind) (cutoff : Instant) (limit : Nat)
    (scope : ProjectScope) (row? : Option QueueRow) :
    (pageStatement strategy cutoff limit scope.projectIds? row?).wire =
      (queueName strategy scope, .ofInstant cutoff :: startParameters row? ++
        .integer limit :: scopeParameters scope) := by
  cases strategy <;> cases scope <;> cases row? <;> rfl

/-- A consumer that pulls `m` items of the queue of a scope, whatever the server answers: its
answers are a script of deliveries. Nothing is sent for an empty scope. Otherwise each page is asked
for from the last row of the page before, and only when that one is full and the consumer pulls
beyond it. So no more statements are sent than it takes to have the items; these come as they were
delivered, and end with the first delivery that is not full. -/
theorem statements_follow_pulls (answers : List Answer) (selected strategy : StrategyKind)
    (pageSize : Int) (time : Instant) (scope : ProjectScope) (cutoff : Instant) (m : Nat) :
    (∃ script : List Delivery, script.map Delivery.answer = answers) ∧
    ∀ script : List Delivery, script.map Delivery.answer = answers →
      let server := Server.ofAnswers answers
      let run := (pull strategy scope cutoff m).run Connection.handle
        (.ofServer server selected pageSize time)
      let limit := (max 1 pageSize).toNat
      let sent := run.2.server.log.length
      (scope.isEmpty = true → sent = 0 ∧ run.1 = .finished) ∧
      (scope.isEmpty = false →
        run.2.server.log.map Statement.wire = (List.range sent).map (fun i ↦
          (queueName strategy scope,
            .ofInstant cutoff :: startParameters (rowBefore? none script i) ++
              .integer limit :: scopeParameters scope)) ∧
        run.1 = ⟨(itemsUpTo script sent).take m, false⟩ ∧
        (0 < sent ↔ 0 < m) ∧
        (∀ i, i + 1 < sent ↔
          i < sent ∧ IsFullAt limit script i ∧ (itemsUpTo script (i + 1)).length < m) ∧
        (run.1.entries.length = m → IsLeast {n | m ≤ (itemsUpTo script n).length} sent) ∧
        (∀ i, (∀ j < i, IsFullAt limit script j) → ¬IsFullAt limit script i →
          (itemsUpTo script (i + 1)).length < m →
          sent = i + 1 ∧ run.1 = ⟨itemsUpTo script (i + 1), false⟩)) := by
  refine ⟨List.map_surjective_iff.2 Delivery.answer_surjective answers, ?_⟩
  rintro script rfl server run limit sent
  constructor
  · intro hempty
    have hrun : run = (.finished, .ofServer server selected pageSize time) :=
      run_pull_empty hempty strategy cutoff m _
    refine ⟨?_, congrArg Prod.fst hrun⟩
    change run.2.server.log.length = 0
    rw [hrun]
    rfl
  · intro hscope
    obtain ⟨k, hfollows⟩ := follows_pull hscope strategy cutoff m
      (c := .ofServer server selected pageSize time) rfl
    have hlog : run.2.server.log = (List.range k).map fun i ↦
        pageStatement strategy cutoff limit scope.projectIds? (rowBefore? none script i) :=
      hfollows.log
    have hsent : sent = k := by
      change run.2.server.log.length = k
      rw [hlog, List.length_map, List.length_range]
    have hreading : run.1 = ⟨(itemsUpTo script k).take m, false⟩ := hfollows.reading
    have hasked : Asked limit script m k := hfollows.asked
    rw [hsent, hreading]
    refine ⟨?_, rfl, hasked.first, hasked.further, fun hpulled ↦ hasked.isLeast ?_,
      fun i hfull hnot hmore ↦ ?_⟩
    · rw [hlog, List.map_map]
      exact List.map_congr_left fun i _ ↦ wire_pageStatement strategy cutoff limit scope _
    · rw [List.length_take] at hpulled
      omega
    · have hlast : k = i + 1 := hasked.eq_of_lt hfull hnot hmore
      rw [hlast, List.take_of_length_le (Nat.le_of_lt hmore)]
      exact ⟨rfl, rfl⟩

/-- A row with its tags out of order, one of them twice. -/
def QueueRow.repeated : QueueRow :=
  ⟨⟨1⟩, ⟨10⟩, ⟨1⟩, ["linux", "docker", "linux"], false, default, by decide⟩

/-- On pages of one row each, the second one is asked for with the second item. -/
example :
    let server := Server.ofAnswers ([.page [.repeated], .page [.repeated]].map Delivery.answer)
    let sent (m : Nat) := ((pull .directScan .everything default m).run Connection.handle
      (.ofServer server .directScan 1 default)).2.server.log.length
    (sent 0, sent 1, sent 2, sent 3, sent 4) = (0, 1, 2, 3, 3) := by
  decide +kernel

end BuildQueue.Postgres
