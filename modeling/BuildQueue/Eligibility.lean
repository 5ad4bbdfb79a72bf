import BuildQueue.Build
import BuildQueue.Runner

/-!
# Eligibility

A build is eligible for a runner at a cutoff if it was queued by then, if the runner may see its
ref and if their tags fit.
-/

namespace BuildQueue

/-- Every tag of a tagged build is on the runner; an untagged build needs a runner that takes
untagged builds. -/
def Runner.acceptsTags (runner : Runner) (tags : TagSet) : Bool :=
  if tags.isEmpty then runner.runUntagged else tags.subset runner.tags

/-- Builds of protected refs need a runner with access to them. -/
def Runner.acceptsProtection (runner : Runner) (build : QueuedBuild) : Bool :=
  !build.refProtected || runner.protectedRefAccess

def QueuedBuild.queuedBy (build : QueuedBuild) (cutoff : Instant) : Bool :=
  build.queuedAt ≤ cutoff

/-- The eligibility of builds for one runner at one cutoff. -/
structure Eligibility where
  runner : Runner
  cutoff : Instant

namespace Eligibility

def admits (e : Eligibility) (build : QueuedBuild) : Bool :=
  build.queuedBy e.cutoff && e.runner.acceptsProtection build && e.runner.acceptsTags build.tags

/-- The eligible builds in their order. -/
def apply (e : Eligibility) (builds : List QueuedBuild) : List QueuedBuild :=
  builds.filter e.admits

end Eligibility

end BuildQueue
