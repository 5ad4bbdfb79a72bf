import BuildQueue.Proofs.Engine.Transcript
import BuildQueue.Proofs.Store.History
import BuildQueue.Store.Service

/-!
# Requests as operations

Of all requests only a claim writes to a store. It is one operation, made at the time it is served,
and it is given what that operation took.
-/

namespace BuildQueue

/-- The write that a request is when it is made at some time. -/
def Request.operation? (now : Instant) : Request → Option StoreOperation
  | .claim job runner => some (.tryClaim job runner now)
  | _ => none

namespace Store

/-- A request other than a claim writes nothing and is given nothing. -/
theorem handle_of_operation?_eq_none (s : Store) (moment : Moment) (selected : StrategyKind)
    {q : Request} (h : q.operation? moment.time = none) :
    (s.handle moment selected q).2 = s ∧ ∀ reply, Exchange.taken? ⟨q, reply⟩ = none := by
  cases q with
  | claim job runner => simp [Request.operation?] at h
  | _ => exact ⟨rfl, fun _ ↦ rfl⟩

/-- A claim writes what its operation writes and is given what that took. -/
theorem handle_of_operation?_eq_some (s : Store) (moment : Moment) (selected : StrategyKind)
    (poll : Option Nat) {q : Request} {op : StoreOperation}
    (h : q.operation? moment.time = some op) :
    (s.handle moment selected q).2 = (s.apply op).2 ∧
      Exchange.taken? ⟨q, (s.handle moment selected q).1⟩ = (s.record poll op).taken? := by
  cases q with
  | claim job runner =>
    obtain rfl : .tryClaim job runner moment.time = op := by simpa [Request.operation?] using h
    unfold Store.record
    rw [Store.apply_tryClaim]
    refine ⟨rfl, ?_⟩
    change (s.tryClaim job runner moment.time).1 = _
    rcases s.tryClaim_cases job runner moment.time with ⟨row, -, -, h⟩ | ⟨-, h⟩ <;> rw [h] <;> rfl
  | _ => simp [Request.operation?] at h

end Store

end BuildQueue
