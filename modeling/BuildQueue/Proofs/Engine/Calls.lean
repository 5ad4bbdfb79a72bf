import BuildQueue.Proofs.Engine.Deadline
import Mathlib.Data.List.DropRight

/-!
# What a call asks for

A fetch of a snapshot starts a pass, and a claim that is given nothing is lost in the pass it
belongs to. All other requests are idle: a scope is resolved, and a cutoff found, by such requests
alone.
-/

namespace BuildQueue

/-! ## Lost claims -/

/-- A claim that was given nothing. -/
def Exchange.isLost : Exchange → Bool
  | ⟨.claim .., .ok none⟩ => true
  | _ => false

def Exchange.isFetch : Exchange → Bool
  | ⟨.fetch .., _⟩ => true
  | _ => false

/-- The number of claims of a transcript that were given nothing. -/
def lostIn (past : List Exchange) : Nat := past.countP Exchange.isLost

/-- What was asked since the last snapshot. -/
def lastPass (past : List Exchange) : List Exchange := past.rtakeWhile fun x ↦ !x.isFetch

/-- What was asked up to the last snapshot. -/
def beforeLastPass (past : List Exchange) : List Exchange := past.rdropWhile fun x ↦ !x.isFetch

variable {past : List Exchange}

theorem lostIn_append (past : List Exchange) (x : Exchange) :
    lostIn (past ++ [x]) = lostIn past + if x.isLost then 1 else 0 := by
  unfold lostIn
  rw [List.countP_append, List.countP_singleton]

theorem lostIn_split (past : List Exchange) :
    lostIn past = lostIn (beforeLastPass past) + lostIn (lastPass past) := by
  unfold lostIn beforeLastPass lastPass
  rw [← List.countP_append, List.rdropWhile_append_rtakeWhile]

/-- A snapshot starts a new pass. -/
theorem lastPass_fetch (past : List Exchange) {x : Exchange} (hx : x.isFetch = true) :
    lastPass (past ++ [x]) = [] ∧ beforeLastPass (past ++ [x]) = past ++ [x] :=
  ⟨List.rtakeWhile_concat_neg _ _ _ (by simp [hx]),
    List.rdropWhile_concat_neg _ _ _ (by simp [hx])⟩

/-- Any other request belongs to the pass that goes on. -/
theorem lastPass_append (past : List Exchange) {x : Exchange} (hx : x.isFetch = false) :
    lastPass (past ++ [x]) = lastPass past ++ [x] ∧
      beforeLastPass (past ++ [x]) = beforeLastPass past :=
  ⟨List.rtakeWhile_concat_pos _ _ _ (by simp [hx]),
    List.rdropWhile_concat_pos _ _ _ (by simp [hx])⟩

/-- The last pass is what was made after the last fetch. -/
theorem lastPass_of_fetch (front : List Exchange) {fetch : Exchange} (hfetch : fetch.isFetch = true)
    {made : List Exchange} (hmade : ∀ x ∈ made, x.isFetch = false) :
    lastPass (front ++ fetch :: made) = made ∧
      beforeLastPass (front ++ fetch :: made) = front ++ [fetch] := by
  induction made using List.reverseRecOn with
  | nil => exact lastPass_fetch front hfetch
  | append_singleton made x ih =>
    obtain ⟨hlast, hbefore⟩ := ih fun y hy ↦ hmade y (List.mem_append_left _ hy)
    have hx : x.isFetch = false := hmade x (by simp)
    rw [← List.cons_append, ← List.append_assoc, (lastPass_append _ hx).1, (lastPass_append _ hx).2,
      hlast, hbefore]
    exact ⟨rfl, rfl⟩

/-! ## Idle requests -/

/-- A request that is neither for a snapshot nor a claim. -/
def Request.isIdle : Request → Bool
  | .fetch .. | .claim .. => false
  | _ => true

/-- A request for the builds of the queue, or for their number. -/
def Request.readsQueue : Request → Bool
  | .fetch .. | .depth .. => true
  | _ => false

theorem Request.IsLookup.isIdle {q : Request} {deadline : Deadline} (h : q.IsLookup deadline) :
    q.isIdle = true ∧ q.readsQueue = false := by
  cases q <;> simp_all [IsLookup, Request.isIdle, readsQueue]

/-- Nothing is lost to idle requests. -/
theorem lostIn_of_isIdle (h : ∀ x ∈ past, x.request.isIdle = true) : lostIn past = 0 := by
  refine List.countP_eq_zero.2 fun x hx ↦ ?_
  have hidle := h x hx
  obtain ⟨q, reply⟩ := x
  cases q <;> simp_all [Request.isIdle, Exchange.isLost]

namespace Engine

/-- A scope is resolved, and a cutoff found, by idle requests. -/
theorem resolve_isIdle (scope : RunnerScope) (deadline : Deadline) :
    (scope.resolve deadline).Asks (fun _ q ↦ q.isIdle = true ∧ q.readsQueue = false) [] :=
  (scope.resolve_asks deadline rfl).imp fun _ _ hq ↦ hq.2.isIdle

theorem cutoff_isIdle (engine : Engine) (cutoff : Option Instant) :
    (engine.cutoff cutoff).Asks (fun _ q ↦ q.isIdle = true ∧ q.readsQueue = false) [] :=
  (engine.cutoff_asks cutoff rfl).imp fun _ _ hq ↦ by rw [hq.2]; exact ⟨rfl, rfl⟩

end Engine

end BuildQueue
