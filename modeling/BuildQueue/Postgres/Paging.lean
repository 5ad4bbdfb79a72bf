import BuildQueue.Engine.Feed
import BuildQueue.Postgres.Row

/-!
# Paging

The queue is read page by page. Each page starts after the key of the last build before it, and is
asked for only when its first build is wanted. A page that is not full is the last one; an error
ends the feed.
-/

namespace BuildQueue.Postgres

/-- Builds of a page unless another size is set. -/
def defaultPageSize : Int := 100

/-- A page holds at least one build. -/
def pageLimit (pageSize : Int) : Nat := (max 1 pageSize).toNat

/-- Where the next page starts, after a page of these builds. -/
def nextPage? (limit : Nat) (builds : List QueuedBuild) : Option QueueKey :=
  if limit ≤ builds.length then builds.getLast?.map QueuedBuild.key else none

/-- The pages after a key, at most so many of them. -/
def pages (strategy : StrategyKind) (cutoff : Instant) (limit : Nat)
    (within : Option (List ProjectId)) : Nat → Option QueueKey → Feed
  | 0, _ => .stall
  | count + 1, after =>
    .statement (.queue strategy cutoff after limit within) fun answer ↦
      match answer.rows QueuedBuild.ofRow? with
      | .error e => .item (.error e.toQueueError) .done
      | .ok builds =>
        Feed.ofBuilds builds <|
          match nextPage? limit builds with
          | none => .done
          | some key => pages strategy cutoff limit within count (some key)

/-- The queue of a scope in pages; no statement is needed where no project is in scope. -/
def queueFeed (strategy : StrategyKind) (pageSize : Int) (scope : ProjectScope) (cutoff : Instant)
    (count : Nat) : Feed :=
  if scope.isEmpty then .done
  else pages strategy cutoff (pageLimit pageSize) scope.projectIds? count none

end BuildQueue.Postgres
