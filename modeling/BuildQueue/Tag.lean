import BuildQueue.OrderedSet

/-!
# Tag sets

Runners and builds carry tags: texts compared by their code points.
-/

namespace BuildQueue

/-- The tags of a runner or a build. -/
abbrev TagSet := OrderedSet String

end BuildQueue
