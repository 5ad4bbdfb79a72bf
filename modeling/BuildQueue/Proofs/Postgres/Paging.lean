import BuildQueue.Engine.Reading
import BuildQueue.Postgres.Paging
import BuildQueue.Proofs.Postgres.Wire
import BuildQueue.Proofs.Store.Views
import BuildQueue.Store.Service

/-!
# Reading a queue page by page

A server answers each statement from the queue as it stands then, so pages come from different
queues. Since each page starts after the key of the last build before it, the builds that are read
are in strict order; and as a page that is full ends at its last build, a build that was there all
the time is met on the page that its key falls on.
-/

namespace BuildQueue

/-- The build stands after the key, if there is one. -/
def QueuedBuild.After (b : QueuedBuild) : Option QueueKey → Prop
  | none => True
  | some key => compare key b.key = .lt

instance (b : QueuedBuild) (after : Option QueueKey) : Decidable (b.After after) :=
  match after with
  | none => inferInstanceAs (Decidable True)
  | some key => inferInstanceAs (Decidable (compare key b.key = .lt))

theorem QueuedBuild.After.trans {a b : QueuedBuild} {after : Option QueueKey} (ha : a.After after)
    (hab : a.Before b) : b.After after := by
  cases after with
  | none => trivial
  | some key =>
    have hless : compare a.key b.key = .lt := order_eq_lt_iff.2 hab
    exact Std.TransCmp.lt_trans ha hless

namespace Feed

variable {σ : Type} (handle : Handler σ)

/-- Some builds are read to their end, and then what comes after them. -/
theorem run_readUpTo_ofBuilds {builds : List QueuedBuild} {most : Nat}
    (h : builds.length ≤ most) (rest : Feed) (s : σ) :
    ((ofBuilds builds rest).readUpTo most).run handle s =
      (⟨builds.map .ok ++ ((rest.readUpTo (most - builds.length)).run handle s).1.entries,
          ((rest.readUpTo (most - builds.length)).run handle s).1.stalled⟩,
        ((rest.readUpTo (most - builds.length)).run handle s).2) := by
  induction builds generalizing most with
  | nil => rfl
  | cons build builds ih =>
    cases most with
    | zero => simp at h
    | succ most =>
      have hle : builds.length ≤ most := Nat.le_of_succ_le_succ h
      change ((ofBuilds builds rest).readUpTo most >>= _).run handle s = _
      rw [Program.run_bind, ih hle, List.length_cons, Nat.add_sub_add_right]
      rfl

/-- Reading ends among some builds. -/
theorem run_readUpTo_ofBuilds_of_lt {builds : List QueuedBuild} {most : Nat}
    (h : most < builds.length) (rest : Feed) (s : σ) :
    ((ofBuilds builds rest).readUpTo most).run handle s =
      (⟨(builds.take most).map .ok, false⟩, s) := by
  induction builds generalizing most with
  | nil => simp at h
  | cons build builds ih =>
    cases most with
    | zero => rfl
    | succ most =>
      have hlt : most < builds.length := Nat.lt_of_succ_lt_succ h
      change ((ofBuilds builds rest).readUpTo most >>= _).run handle s = _
      rw [Program.run_bind, ih hlt]
      rfl

/-- A statement that is answered goes on with its answer. -/
theorem run_readUpTo_statement {statement : Postgres.Statement} {answer : Postgres.Answer}
    {s s' : σ} (h : handle (.statement statement none) s = (some answer, s'))
    (next : Postgres.Answer → Feed) (most : Nat) :
    ((Feed.statement statement next).readUpTo (most + 1)).run handle s =
      ((next answer).readUpTo (most + 1)).run handle s' := by
  rw [readUpTo, Program.run_ask, h]

end Feed

namespace Postgres

/-- The server's view of a build standing after the key that two parameters are; after no key if
both are null. -/
def isAfter (b : QueuedBuild) : Value → Value → Bool
  | .timestamp micros, .integer job =>
    micros < b.queuedAt.toMicros || micros = b.queuedAt.toMicros && job < b.jobId.toInt
  | .null, .null => true
  | _, _ => false

/-- What a server with this queue answers a statement with: the first builds after the key that the
second and the third parameter are, in queue order, and at most as many as the fourth one says. -/
def page (queue : List QueuedBuild) (s : Statement) : List QueuedBuild :=
  match s.parameters with
  | _ :: queuedAt :: job :: .integer limit :: _ =>
    ((QueuedBuild.sort queue).filter (isAfter · queuedAt job)).take limit.toNat
  | _ => []

/-- A server whose queue is another one at each statement, with the pages that it has sent. No other
request is made of a server. -/
def serve (queues : Nat → List QueuedBuild) : Handler (List (List QueuedBuild))
  | .statement s _, sent =>
    (some (.ok ((page (queues sent.length) s).map QueuedBuild.toRow)),
      sent ++ [page (queues sent.length) s])
  | q, sent => ((Store.empty.handle ⟨0, default⟩ .directScan q).1, sent)

/-! ## One page -/

/-- Builds with different ids and instants that the wire represents. -/
structure IsQueue (queue : List QueuedBuild) : Prop where
  jobId_ne : queue.Pairwise fun a b ↦ a.jobId ≠ b.jobId
  onWire : ∀ b ∈ queue, b.queuedAt.OnWire

variable {queue : List QueuedBuild} {after : Option QueueKey}

theorem isAfter_iff {b : QueuedBuild} (hb : b.queuedAt.OnWire)
    (hafter : ∀ key, after = some key → key.queuedAt.OnWire) :
    isAfter b (.ofOption (fun k ↦ .ofInstant k.queuedAt) after)
      (.ofOption (fun k ↦ .ofId k.jobId) after) = true ↔ b.After after := by
  cases after with
  | none => exact iff_of_true rfl trivial
  | some key =>
    have hkey : key.queuedAt.OnWire := hafter key rfl
    change (_ || _ && _) = true ↔ compare key b.key = .lt
    rw [QueuedBuild.compare_key_eq_lt, Bool.or_eq_true, Bool.and_eq_true, decide_eq_true_iff,
      decide_eq_true_iff, decide_eq_true_iff, hkey.toMicros_lt_iff hb, hkey.toMicros_eq_iff hb]
    rfl

theorem page_queue (hqueue : IsQueue queue)
    (hafter : ∀ key, after = some key → key.queuedAt.OnWire) (strategy : StrategyKind)
    (cutoff : Instant) (limit : Nat) (within : Option (List ProjectId)) :
    page queue (.queue strategy cutoff after limit within) =
      ((QueuedBuild.sort queue).filter fun b ↦ b.After after).take limit := by
  have hfilter : ∀ b ∈ QueuedBuild.sort queue,
      isAfter b (.ofOption (fun k ↦ .ofInstant k.queuedAt) after)
        (.ofOption (fun k ↦ .ofId k.jobId) after) = decide (b.After after) := by
    intro b hb
    rw [Bool.eq_iff_iff, decide_eq_true_iff]
    exact isAfter_iff (hqueue.onWire b (QueuedBuild.mem_sort.1 hb)) hafter
  change ((QueuedBuild.sort queue).filter _).take (limit : Int).toNat = _
  rw [List.filter_congr hfilter, Int.toNat_natCast]

/-- A page of the queue: builds of it in order, after the key. What is left out of them stands after
them all, and then the page is full. -/
structure IsPage (queue : List QueuedBuild) (after : Option QueueKey) (limit : Nat)
    (page : List QueuedBuild) : Prop where
  mem_queue : ∀ b ∈ page, b ∈ queue
  after_key : ∀ b ∈ page, b.After after
  ascending : page.Pairwise QueuedBuild.Before
  complete : ∀ b ∈ queue, b.After after →
    b ∈ page ∨ limit ≤ page.length ∧ ∀ a ∈ page, a.Before b

theorem isPage_take (hqueue : IsQueue queue) (after : Option QueueKey) (limit : Nat) :
    IsPage queue after limit
      (((QueuedBuild.sort queue).filter fun b ↦ b.After after).take limit) := by
  let fresh := (QueuedBuild.sort queue).filter fun b ↦ b.After after
  have hmem (b : QueuedBuild) : b ∈ fresh ↔ b ∈ queue ∧ b.After after := by
    unfold fresh
    rw [List.mem_filter, QueuedBuild.mem_sort, decide_eq_true_iff]
  have hfresh : fresh.Pairwise QueuedBuild.Before :=
    (QueuedBuild.sort_pairwise hqueue.jobId_ne).filter _
  change IsPage queue after limit (fresh.take limit)
  constructor
  · exact fun b hb ↦ ((hmem b).1 (List.mem_of_mem_take hb)).1
  · exact fun b hb ↦ ((hmem b).1 (List.mem_of_mem_take hb)).2
  · exact hfresh.sublist (List.take_sublist _ _)
  · intro b hb hafter
    have hsplit : fresh.take limit ++ fresh.drop limit = fresh := List.take_append_drop _ _
    have hb' : b ∈ fresh.take limit ++ fresh.drop limit := by
      rw [hsplit]
      exact (hmem b).2 ⟨hb, hafter⟩
    rcases List.mem_append.1 hb' with htake | hdrop
    · exact .inl htake
    · right
      have hlong : 0 < (fresh.drop limit).length := List.length_pos_of_mem hdrop
      rw [← hsplit, List.pairwise_append] at hfresh
      constructor
      · rw [List.length_drop] at hlong
        rw [List.length_take]
        omega
      · exact fun a ha ↦ hfresh.2.2 a ha b hdrop

/-- A page that is full is followed by the one after its last build, any other by none. -/
theorem nextPage?_cases {limit : Nat} (hlimit : 1 ≤ limit) (page : List QueuedBuild) :
    (page.length < limit ∧ nextPage? limit page = none) ∨
      (limit ≤ page.length ∧ ∃ init last, page = init ++ [last] ∧
        nextPage? limit page = some last.key) := by
  unfold nextPage?
  by_cases hfull : limit ≤ page.length
  · rw [if_pos hfull]
    rcases List.eq_nil_or_concat page with hnil | ⟨init, last, hpage⟩
    · rw [hnil, List.length_nil] at hfull
      omega
    · refine .inr ⟨hfull, init, last, ?_, ?_⟩
      · rw [hpage, List.concat_eq_append]
      · rw [hpage, List.concat_eq_append, List.getLast?_append_cons]
        rfl
  · rw [if_neg hfull]
    exact .inl ⟨Nat.lt_of_not_le hfull, rfl⟩

/-! ## All pages -/

/-- What is read of at most so many builds after a key, on at most so many pages, the first of which
is answered from the queue of this number. -/
structure Reads (queues : Nat → List QueuedBuild) (first : Nat) (after : Option QueueKey)
    (count most : Nat) (sent : List (List QueuedBuild)) (reading : FeedReading) : Prop where
  entries : reading.entries = (sent.flatten.take most).map .ok
  after_key : ∀ b ∈ sent.flatten, b.After after
  ascending : sent.flatten.Pairwise QueuedBuild.Before
  mem_queue : ∀ i page, sent[i]? = some page → ∀ b ∈ page, b ∈ queues (first + i)
  /-- At the end of the feed everything was read that was always there. -/
  complete : sent.flatten.length < most → reading.stalled = false →
    ∀ b, b.After after → (∀ i < sent.length, b ∈ queues (first + i)) → b ∈ sent.flatten
  /-- Every page before the one that is given up on was full. -/
  stalled : reading.stalled = true → count ≤ sent.flatten.length

namespace Reads

variable {queues : Nat → List QueuedBuild} {first count limit most : Nat}
  {after : Option QueueKey}

/-- Nothing is read where nothing is wanted, or where there is no page to read. -/
theorem nothing (after : Option QueueKey) {stalled : Bool} (hend : most = 0 ∨ stalled = true)
    (hcount : stalled = true → count = 0) :
    Reads queues first after count most [] ⟨[], stalled⟩ where
  entries := by simp
  after_key := by simp
  ascending := by simp
  mem_queue := by simp
  complete := by
    intro hmost hread
    rcases hend with hzero | hstalled
    · exact absurd hmost (by simp [hzero])
    · exact absurd (hread.symm.trans hstalled) (by decide)
  stalled := fun hstalled ↦ Nat.le_of_eq (hcount hstalled)

/-- Reading ends on a page, either within it or because it is the last one. -/
theorem last {page : List QueuedBuild} (hpage : IsPage (queues first) after limit page)
    (hend : most < page.length ∨ page.length < limit) :
    Reads queues first after count most [page] ⟨(page.take most).map .ok, false⟩ where
  entries := by simp
  after_key := by simpa using hpage.after_key
  ascending := by simpa using hpage.ascending
  mem_queue := by
    intro i found hfound
    rw [List.getElem?_singleton] at hfound
    split at hfound
    next hi =>
      rw [hi, ← Option.some.inj hfound]
      exact hpage.mem_queue
    next => exact absurd hfound (by simp)
  complete := by
    intro hmost _ b hafter hmem
    have hfirst : b ∈ queues first := hmem 0 Nat.one_pos
    simp only [List.flatten_cons, List.flatten_nil, List.append_nil] at hmost ⊢
    rcases hpage.complete b hfirst hafter with hb | ⟨hfull, -⟩
    · exact hb
    · omega
  stalled := by simp

/-- A page that is full is followed by those after its last build. -/
theorem cons {init : List QueuedBuild} {last : QueuedBuild}
    (hpage : IsPage (queues first) after limit (init ++ [last]))
    (hmost : (init ++ [last]).length ≤ most) {sent : List (List QueuedBuild)}
    {reading : FeedReading}
    (h : Reads queues (first + 1) (some last.key) count (most - (init ++ [last]).length) sent
      reading) :
    Reads queues first after (count + 1) most ((init ++ [last]) :: sent)
      ⟨(init ++ [last]).map .ok ++ reading.entries, reading.stalled⟩ := by
  have hlast : last ∈ init ++ [last] := by simp
  have hle : ∀ a ∈ init ++ [last], a = last ∨ a.Before last := by
    intro a ha
    rcases List.mem_append.1 ha with ha | ha
    · exact .inr ((List.pairwise_append.1 hpage.ascending).2.2 a ha last (by simp))
    · exact .inl (List.mem_singleton.1 ha)
  have hnext : ∀ b ∈ sent.flatten, last.Before b :=
    fun b hb ↦ QueuedBuild.order_eq_lt_iff.1 (h.after_key b hb)
  have hlater : ∀ a ∈ init ++ [last], ∀ b ∈ sent.flatten, a.Before b := by
    intro a ha b hb
    rcases hle a ha with rfl | hbefore
    · exact hnext b hb
    · exact hbefore.trans (hnext b hb)
  have hindex (i : Nat) : first + (i + 1) = first + 1 + i := by omega
  generalize init ++ [last] = page at *
  constructor
  · rw [List.flatten_cons, List.take_append, List.take_of_length_le hmost, List.map_append,
      ← h.entries]
  · intro b hb
    rcases List.mem_append.1 hb with hb | hb
    · exact hpage.after_key b hb
    · exact (hpage.after_key last hlast).trans (hnext b hb)
  · exact List.pairwise_append.2 ⟨hpage.ascending, h.ascending, hlater⟩
  · intro i found hfound
    cases i with
    | zero =>
      rw [← Option.some.inj hfound]
      exact hpage.mem_queue
    | succ i =>
      rw [hindex]
      exact h.mem_queue i found hfound
  · intro hread hnot b hafter hmem
    rw [List.flatten_cons, List.length_append] at hread
    rcases hpage.complete b (hmem 0 (Nat.succ_pos _)) hafter with hb | ⟨-, hbefore⟩
    · exact List.mem_append_left _ hb
    · have hkey : b.After (some last.key) :=
        QueuedBuild.order_eq_lt_iff.2 (hbefore last hlast)
      have hrest : ∀ i < sent.length, b ∈ queues (first + 1 + i) := by
        intro i hi
        rw [← hindex]
        exact hmem (i + 1) (Nat.succ_lt_succ hi)
      exact List.mem_append_right _ (h.complete (by omega) hnot b hkey hrest)
  · intro hstalled
    have hcount : count ≤ sent.flatten.length := h.stalled hstalled
    have hpos : 0 < page.length := List.length_pos_of_mem hlast
    rw [List.flatten_cons, List.length_append]
    omega

end Reads

/-- The builds of a page, and then the next page if this one is full. -/
def pageFeed (limit : Nat) (next : QueueKey → Feed) (builds : List QueuedBuild) : Feed :=
  Feed.ofBuilds builds <|
    match nextPage? limit builds with
    | none => .done
    | some key => next key

section

variable {σ : Type} {handle : Handler σ} {s s' : σ} {strategy : StrategyKind} {cutoff : Instant}
  {limit : Nat} {within : Option (List ProjectId)} {after : Option QueueKey} {answer : Answer}

/-- An answer that is read goes on with the builds of its page. -/
theorem run_pages_of_rows {builds : List QueuedBuild}
    (h : handle (.statement (.queue strategy cutoff after limit within) none) s = (some answer, s'))
    (hrows : answer.rows QueuedBuild.ofRow? = .ok builds) (count most : Nat) :
    ((pages strategy cutoff limit within (count + 1) after).readUpTo (most + 1)).run handle s =
      ((pageFeed limit (fun key ↦ pages strategy cutoff limit within count (some key))
        builds).readUpTo (most + 1)).run handle s' := by
  rw [pages, Feed.run_readUpTo_statement _ h, hrows]
  rfl

/-- An error in place of an answer ends the feed. -/
theorem run_pages_of_error {e : StatementError}
    (h : handle (.statement (.queue strategy cutoff after limit within) none) s = (some answer, s'))
    (hrows : answer.rows QueuedBuild.ofRow? = .error e) (count most : Nat) :
    ((pages strategy cutoff limit within (count + 1) after).readUpTo (most + 1)).run handle s =
      (⟨[.error e.toQueueError], false⟩, s') := by
  rw [pages, Feed.run_readUpTo_statement _ h, hrows]
  rfl

end

/-- The feed of the pages after those that were sent, as the next one of them is read. -/
theorem run_pages_succ {queues : Nat → List QueuedBuild} {before : List (List QueuedBuild)}
    (hqueue : IsQueue (queues before.length)) (strategy : StrategyKind) (cutoff : Instant)
    (limit : Nat) (within : Option (List ProjectId)) (count : Nat) (after : Option QueueKey)
    (most : Nat) {found : List QueuedBuild}
    (hpage : page (queues before.length) (.queue strategy cutoff after limit within) = found)
    (hmem : ∀ b ∈ found, b ∈ queues before.length) :
    ((pages strategy cutoff limit within (count + 1) after).readUpTo (most + 1)).run
        (serve queues) before =
      ((Feed.ofBuilds found
        (match nextPage? limit found with
        | none => .done
        | some key => pages strategy cutoff limit within count (some key))).readUpTo
          (most + 1)).run (serve queues) (before ++ [found]) := by
  have hrows : Answer.rows QueuedBuild.ofRow? (.ok (found.map QueuedBuild.toRow)) = .ok found :=
    QueuedBuild.rows_toRow fun b hb ↦ hqueue.onWire b (hmem b hb)
  have hserve : serve queues
      (.statement (.queue strategy cutoff after limit within) none) before =
        (some (.ok (found.map QueuedBuild.toRow)), before ++ [found]) := by
    rw [← hpage]
    rfl
  exact run_pages_of_rows hserve hrows count most

/-- Where one build is a full page, it is followed by the next page. -/
theorem run_pages_single {queues : Nat → List QueuedBuild} {before : List (List QueuedBuild)}
    (hqueue : IsQueue (queues before.length)) {strategy : StrategyKind} {cutoff : Instant}
    {within : Option (List ProjectId)} {count : Nat} {after : Option QueueKey} {most : Nat}
    {b : QueuedBuild} (hmem : b ∈ queues before.length)
    (hpage : page (queues before.length) (.queue strategy cutoff after 1 within) = [b]) :
    ((pages strategy cutoff 1 within (count + 1) after).readUpTo (most + 1)).run (serve queues)
        before =
      let run := ((pages strategy cutoff 1 within count (some b.key)).readUpTo most).run
        (serve queues) (before ++ [[b]])
      (⟨.ok b :: run.1.entries, run.1.stalled⟩, run.2) := by
  have hmost : [b].length ≤ most + 1 := Nat.succ_le_succ most.zero_le
  rw [run_pages_succ hqueue strategy cutoff 1 within count after most hpage
    (List.forall_mem_singleton.2 hmem), Feed.run_readUpTo_ofBuilds _ hmost]
  rfl

/-- Reading the pages of a server whose queue may be another one at each statement. -/
theorem reads_pages {queues : Nat → List QueuedBuild} (hqueues : ∀ i, IsQueue (queues i))
    (strategy : StrategyKind) (cutoff : Instant) {limit : Nat} (hlimit : 1 ≤ limit)
    (within : Option (List ProjectId)) (count : Nat) {after : Option QueueKey}
    (hafter : ∀ key, after = some key → key.queuedAt.OnWire) (most : Nat)
    (before : List (List QueuedBuild)) :
    let run := ((pages strategy cutoff limit within count after).readUpTo most).run
      (serve queues) before
    ∃ more, run.2 = before ++ more ∧
      Reads queues before.length after count most more run.1 := by
  intro run
  induction count generalizing after most before with
  | zero =>
    have hrun : run = (⟨[], true⟩, before) := rfl
    rw [hrun]
    exact ⟨[], (List.append_nil _).symm, .nothing after (.inr rfl) fun _ ↦ rfl⟩
  | succ count ih =>
    cases most with
    | zero =>
      have hrun : run = (⟨[], false⟩, before) := rfl
      rw [hrun]
      exact ⟨[], (List.append_nil _).symm, .nothing after (.inl rfl) (by simp)⟩
    | succ most =>
      have hqueue : IsQueue (queues before.length) := hqueues _
      have hpage := isPage_take hqueue after limit
      have hfound := page_queue hqueue hafter strategy cutoff limit within
      generalize ((QueuedBuild.sort (queues before.length)).filter
        fun b ↦ b.After after).take limit = found at hpage hfound
      have hrun := run_pages_succ hqueue strategy cutoff limit within count after most hfound
        hpage.mem_queue
      change run = _ at hrun
      rw [hrun]
      by_cases hlong : most + 1 < found.length
      · rw [Feed.run_readUpTo_ofBuilds_of_lt _ hlong]
        exact ⟨[found], rfl, .last hpage (.inl hlong)⟩
      · have hle : found.length ≤ most + 1 := Nat.le_of_not_lt hlong
        rw [Feed.run_readUpTo_ofBuilds _ hle]
        rcases nextPage?_cases hlimit found with ⟨hshort, hnone⟩ | ⟨-, init, last, rfl, hnext⟩
        · have hend : Reads queues before.length after (count + 1) (most + 1) [found]
              ⟨(found.take (most + 1)).map .ok, false⟩ := .last hpage (.inr hshort)
          rw [List.take_of_length_le hle] at hend
          rw [hnone]
          refine ⟨[found], rfl, ?_⟩
          change Reads _ _ _ _ _ _ ⟨_ ++ [], false⟩
          rw [List.append_nil]
          exact hend
        · have hlast : ∀ key, some last.key = some key → key.queuedAt.OnWire := by
            intro key hkey
            rw [← Option.some.inj hkey]
            exact hqueue.onWire last (hpage.mem_queue last (by simp))
          rw [hnext]
          obtain ⟨more, hsent, hreads⟩ := ih hlast (most + 1 - (init ++ [last]).length)
            (before ++ [init ++ [last]])
          rw [List.length_append, List.length_singleton] at hreads
          refine ⟨(init ++ [last]) :: more, ?_, Reads.cons hpage hle hreads⟩
          rw [hsent, List.append_assoc]
          rfl

/-! ## The whole queue -/

theorem pageLimit_of_lt {pageSize : Int} (h : pageSize < 1) : pageLimit pageSize = 1 := by
  unfold pageLimit
  omega

namespace Reads

variable {queues : Nat → List QueuedBuild} {count most : Nat} {sent : List (List QueuedBuild)}
  {reading : FeedReading}

/-- At the end of the feed everything that was always there was read exactly once. -/
theorem count_eq_one (h : Reads queues 0 none count most sent reading)
    (hend : (sent.flatten.take most).length < most) (hread : reading.stalled = false)
    {b : QueuedBuild} (hmem : ∀ i < sent.length, b ∈ queues i) :
    (sent.flatten.take most).count b = 1 := by
  rw [List.length_take] at hend
  have hshort : sent.flatten.length < most := by omega
  have hall : ∀ i < sent.length, b ∈ queues (0 + i) := by
    intro i hi
    rw [Nat.zero_add]
    exact hmem i hi
  rw [List.take_of_length_le (Nat.le_of_lt hshort)]
  exact List.count_eq_one_of_mem (QueuedBuild.nodup_of_pairwise h.ascending)
    (h.complete hshort hread b trivial hall)

/-- A queue that does not change is read as it is in order, if its length is within the limits. -/
theorem eq_sort (h : Reads queues 0 none count most sent reading) {queue : List QueuedBuild}
    (hqueue : IsQueue queue) (hsame : ∀ i, queues i = queue) (hcount : queue.length < count)
    (hmost : queue.length < most) :
    sent.flatten.take most = QueuedBuild.sort queue ∧ reading.stalled = false := by
  have hsub : ∀ b ∈ sent.flatten, b ∈ queue := by
    intro b hb
    obtain ⟨page, hpage, hb⟩ := List.mem_flatten.1 hb
    obtain ⟨i, hi⟩ := List.mem_iff_getElem?.1 hpage
    have hmem := h.mem_queue i page hi b hb
    rw [hsame] at hmem
    exact hmem
  have hnodup : sent.flatten.Nodup := QueuedBuild.nodup_of_pairwise h.ascending
  have hlength : sent.flatten.length ≤ queue.length := (hnodup.subperm hsub).length_le
  have hread : reading.stalled = false := by
    by_contra hstalled
    rw [Bool.not_eq_false] at hstalled
    have hfull : count ≤ sent.flatten.length := h.stalled hstalled
    omega
  have hall : ∀ b ∈ queue, b ∈ sent.flatten := by
    intro b hb
    apply h.complete (by omega) hread b trivial
    intro i _
    rw [hsame]
    exact hb
  rw [List.take_of_length_le (by omega)]
  refine ⟨?_, hread⟩
  apply QueuedBuild.eq_of_mem_iff h.ascending (QueuedBuild.sort_pairwise hqueue.jobId_ne)
  intro b
  rw [QueuedBuild.mem_sort]
  exact ⟨hsub b, hall b⟩

end Reads

/-- The feed of a queue read page by page from a server whose queue may be another one at each
statement. What is read is in strict order, every build of a page is one of the queue which that
page was answered from, and if the feed was read to its end then every build that was in all of
these queues was read exactly once. A queue that does not change is read as it is in queue order,
whatever the size of a page, and this is the direct scan of a store that offers the same builds. A
size below one acts as one. -/
theorem paging_keeps_every_build (strategy : StrategyKind) (pageSize : Int) {scope : ProjectScope}
    (hscope : scope.isEmpty = false) (cutoff : Instant) (count most : Nat)
    {queues : Nat → List QueuedBuild} (hqueues : ∀ i, IsQueue (queues i)) :
    let run := ((queueFeed strategy pageSize scope cutoff count).readUpTo most).run
      (serve queues) []
    ∃ builds : List QueuedBuild,
      run.1.entries = builds.map .ok ∧ builds = run.2.flatten.take most ∧
      builds.Pairwise QueuedBuild.Before ∧
      (∀ i page, run.2[i]? = some page → ∀ b ∈ page, b ∈ queues i) ∧
      (builds.length < most → run.1.stalled = false →
        ∀ b, (∀ i < run.2.length, b ∈ queues i) → builds.count b = 1) ∧
      (∀ queue, (∀ i, queues i = queue) → queue.length < count → queue.length < most →
        builds = QueuedBuild.sort queue ∧ run.1.stalled = false ∧
        ∀ ops, (∀ b, (Store.after ops).Offers scope cutoff b ↔ b ∈ queue) →
          (Store.after ops).scanBuilds scope cutoff = builds) ∧
      (pageSize < 1 → queueFeed strategy pageSize scope cutoff count =
        queueFeed strategy 1 scope cutoff count) := by
  intro run
  have hfeed (size : Int) : queueFeed strategy size scope cutoff count =
      pages strategy cutoff (pageLimit size) scope.projectIds? count none := by
    unfold queueFeed
    rw [hscope]
    rfl
  have hlimit : 1 ≤ pageLimit pageSize := by
    unfold pageLimit
    omega
  have hnone : ∀ key, (none : Option QueueKey) = some key → key.queuedAt.OnWire := by simp
  obtain ⟨sent, hsent, h⟩ :=
    reads_pages hqueues strategy cutoff hlimit scope.projectIds? count hnone most []
  rw [← hfeed] at hsent h
  change run.2 = [] ++ sent at hsent
  rw [List.nil_append] at hsent
  rw [hsent]
  refine ⟨sent.flatten.take most, h.entries, rfl, h.ascending.sublist (List.take_sublist _ _), ?_,
    fun hend hread b hmem ↦ h.count_eq_one hend hread hmem, ?_, ?_⟩
  · intro i page hpage b hb
    have hmem := h.mem_queue i page hpage b hb
    rw [List.length_nil, Nat.zero_add] at hmem
    exact hmem
  · intro queue hsame hcount hmost
    have hqueue : IsQueue queue := hsame 0 ▸ hqueues 0
    obtain ⟨hbuilds, hread⟩ := h.eq_sort hqueue hsame hcount hmost
    refine ⟨hbuilds, hread, fun ops hoffers ↦ ?_⟩
    have hsound : (Store.after ops).Sound := Store.sound_after ops
    rw [hbuilds]
    apply QueuedBuild.eq_of_mem_iff (hsound.scanBuilds_pairwise scope cutoff)
      (QueuedBuild.sort_pairwise hqueue.jobId_ne)
    intro b
    rw [hsound.mem_scanBuilds, QueuedBuild.mem_sort, hoffers]
  · intro hsmall
    have hone : pageLimit 1 = 1 := by decide
    rw [hfeed, hfeed, pageLimit_of_lt hsmall, hone]

/-- Builds that were queued at the same time. -/
def waiting (job : JobId) : QueuedBuild := ⟨job, ⟨10⟩, ⟨1⟩, .empty, false, default⟩

/-- The first build is taken after the first page, and the third one comes in its place. -/
def waitingAt : Nat → List QueuedBuild
  | 0 => [waiting ⟨2⟩, waiting ⟨1⟩]
  | _ => [waiting ⟨3⟩, waiting ⟨2⟩]

theorem isQueue_waiting {a b : JobId} (h : a ≠ b) : IsQueue [waiting a, waiting b] := by
  constructor
  · exact List.pairwise_pair.2 h
  · intro c hc
    have hqueuedAt : c.queuedAt = default := by
      simp only [List.mem_cons, List.not_mem_nil, or_false] at hc
      rcases hc with rfl | rfl <;> rfl
    rw [hqueuedAt]
    decide

theorem isQueue_waitingAt (i : Nat) : IsQueue (waitingAt i) := by
  cases i with
  | zero => exact isQueue_waiting (by decide)
  | succ i => exact isQueue_waiting (by decide)

theorem sort_waiting {a b : JobId} (h : a.toInt < b.toInt) :
    QueuedBuild.sort [waiting b, waiting a] = [waiting a, waiting b] := by
  have hne : b ≠ a := by
    rintro rfl
    exact absurd h (Int.lt_irrefl _)
  refine QueuedBuild.eq_of_mem_iff (QueuedBuild.sort_pairwise (isQueue_waiting hne).jobId_ne)
    (List.pairwise_pair.2 (.inr ⟨rfl, h⟩)) fun c ↦ ?_
  rw [QueuedBuild.mem_sort]
  simp [or_comm]

/-- The page after the build of an id, if one is given. -/
theorem page_waiting {a b : JobId} (h : a.toInt < b.toInt) (last : Option JobId) :
    let after := last.map fun job ↦ (waiting job).key
    page [waiting b, waiting a] (.queue .directScan default after 1 none) =
      ([waiting a, waiting b].filter fun c ↦ c.After after).take 1 := by
  intro after
  have hne : b ≠ a := by
    rintro rfl
    exact absurd h (Int.lt_irrefl _)
  have hafter : ∀ key, after = some key → key.queuedAt.OnWire := by
    intro key hkey
    obtain ⟨job, -, rfl⟩ := Option.map_eq_some_iff.1 hkey
    exact (by decide : (default : Instant).OnWire)
  rw [page_queue (isQueue_waiting hne) hafter, sort_waiting h]

/-- A queue read in pages of one build. -/
def readByOne (queues : Nat → List QueuedBuild) : FeedReading × List (List QueuedBuild) :=
  ((queueFeed .directScan 0 .everything default 4).readUpTo 4).run (serve queues) []

/-- Each page ends between builds that were queued at the same time. -/
theorem readByOne_waitingAt : readByOne waitingAt =
    (⟨[waiting ⟨1⟩, waiting ⟨2⟩, waiting ⟨3⟩].map .ok, false⟩,
      [[waiting ⟨1⟩], [waiting ⟨2⟩], [waiting ⟨3⟩], []]) := by
  have hfirst : page (waitingAt 0) (.queue .directScan default none 1 none) = [waiting ⟨1⟩] :=
    (page_waiting (by decide) none).trans (by decide)
  have hlater (i : Nat) (job : JobId) :
      page (waitingAt (i + 1)) (.queue .directScan default (some (waiting job).key) 1 none) =
        ([waiting ⟨2⟩, waiting ⟨3⟩].filter fun c ↦ c.After (some (waiting job).key)).take 1 :=
    page_waiting (by decide) (some job)
  have hsecond := (hlater 0 ⟨1⟩).trans (by decide : _ = [waiting ⟨2⟩])
  have hthird := (hlater 1 ⟨2⟩).trans (by decide : _ = [waiting ⟨3⟩])
  have hlast := (hlater 2 ⟨3⟩).trans (by decide : _ = [])
  change ((pages .directScan default 1 none 4 none).readUpTo 4).run (serve waitingAt) [] = _
  rw [run_pages_single (isQueue_waitingAt 0) (by decide) hfirst,
    run_pages_single (isQueue_waitingAt 1) (by decide) hsecond,
    run_pages_single (isQueue_waitingAt 2) (by decide) hthird,
    run_pages_succ (isQueue_waitingAt 3) _ _ _ _ _ _ _ hlast (List.forall_mem_nil _)]
  rfl

/-- In pages of one, what is taken meanwhile and what comes in its place make no difference to the
build that waits all the time. -/
theorem paging_keeps_every_build_waiting :
    ProjectScope.everything.isEmpty = false ∧ (∀ i, IsQueue (waitingAt i)) ∧
      (readByOne waitingAt).2 = [[waiting ⟨1⟩], [waiting ⟨2⟩], [waiting ⟨3⟩], []] ∧
      (∃ builds : List QueuedBuild, (readByOne waitingAt).1 = ⟨builds.map .ok, false⟩ ∧
        builds = [waiting ⟨1⟩, waiting ⟨2⟩, waiting ⟨3⟩] ∧ builds.count (waiting ⟨2⟩) = 1) ∧
      ∃ builds : List QueuedBuild, (readByOne fun _ ↦ waitingAt 0).1 = ⟨builds.map .ok, false⟩ ∧
        builds = QueuedBuild.sort (waitingAt 0) ∧ builds.map (·.jobId) = [⟨1⟩, ⟨2⟩] := by
  have hscope : ProjectScope.everything.isEmpty = false := rfl
  have hpages : (readByOne waitingAt).2 = [[waiting ⟨1⟩], [waiting ⟨2⟩], [waiting ⟨3⟩], []] := by
    rw [readByOne_waitingAt]
  have hend : (readByOne waitingAt).1.stalled = false := by
    rw [readByOne_waitingAt]
  refine ⟨hscope, isQueue_waitingAt, hpages, ?_, ?_⟩
  · obtain ⟨builds, hentries, hbuilds, -, -, honce, -⟩ :=
      paging_keeps_every_build .directScan 0 hscope default 4 4 isQueue_waitingAt
    change (readByOne waitingAt).1.entries = _ at hentries
    change builds = (readByOne waitingAt).2.flatten.take 4 at hbuilds
    rw [hpages] at hbuilds
    have hcount : builds.count (waiting ⟨2⟩) = 1 := by
      refine honce (by rw [hbuilds]; decide) hend _ fun i _ ↦ ?_
      cases i <;> simp [waitingAt]
    exact ⟨builds, by rw [← hentries, ← hend], hbuilds, hcount⟩
  · obtain ⟨builds, hentries, -, -, -, -, hsame, -⟩ :=
      paging_keeps_every_build .directScan 0 hscope default 4 4 fun _ ↦ isQueue_waitingAt 0
    obtain ⟨hsort, hread, -⟩ := hsame (waitingAt 0) (fun _ ↦ rfl) (by decide) (by decide)
    have hsorted : QueuedBuild.sort (waitingAt 0) = [waiting ⟨1⟩, waiting ⟨2⟩] :=
      sort_waiting (by decide)
    exact ⟨builds, by rw [readByOne, ← hentries, ← hread], hsort, by rw [hsort, hsorted]; rfl⟩

end Postgres

end BuildQueue
