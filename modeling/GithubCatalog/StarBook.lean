import GithubCatalog.Lib.Refinement
import GithubCatalog.MutationEffects

/-!
# The star book

What the catalog is for, as far as stars and modes go, in the provider's own ids: which repositories it
knows, the mode of each, which of them each account stars, and what the open full snapshots have seen.

* `StarBook` - the book; `BookEvent`, `StarBook.next` - what can happen to it;
* `StarBook.evidence` - what an event says of one account's star;
* `StarBook.stars_last` - a star is what the last evidence of it said;
* `starBook` - the book a database keeps.
-/

namespace GithubCatalog

open Relational Transact Runs

/-! ### The book and its events -/

/-- Modes, stars and staged listings, by provider ids. -/
@[ext] structure StarBook where
  /-- `none` for a repository that is not catalogued. -/
  mode : ℤ → Option (Option RepositoryMode)
  stars : Uuid → ℤ → Bool
  staged : Uuid → ℤ → Bool

/-- An empty book. -/
def StarBook.empty : StarBook := ⟨fun _ => none, fun _ _ => false, fun _ _ => false⟩

inductive BookEvent where
  /-- A repository is catalogued, unless it is already. -/
  | catalogue (pid : ℤ)
  /-- Evidence that an account stars a repository, or does not any more. -/
  | star (direction : StarDirection) (account : Uuid) (pid : ℤ)
  /-- A star of a retired catalog. -/
  | claim (account : Uuid) (pid : ℤ)
  /-- A mode is requested for an account. -/
  | request (account : Uuid) (pid : ℤ) (requested : RequestedMode)
  /-- A repository is tracked. -/
  | track (pid : ℤ)
  /-- A snapshot run saw a page. -/
  | stage (run : Uuid) (pids : List ℤ)
  /-- A snapshot run gave up. -/
  | discard (run : Uuid)
  /-- A snapshot run becomes the account's stars. -/
  | reconcile (run account : Uuid)
  /-- Accounts and runs are erased, and repositories forgotten. -/
  | forget (accounts runs : Uuid → Bool) (pids : ℤ → Bool)

/-- The mode a completed snapshot leaves. -/
def reconciledMode (staged starred : Bool) (mode : Option RepositoryMode) : Option RepositoryMode :=
  if staged then StarDirection.add.modeAfter mode
  else if starred then StarDirection.remove.modeAfter mode
  else mode

namespace StarBook

/-- A change of one repository's mode. -/
def adjust (b : StarBook) (pid : ℤ) (f : Option RepositoryMode → Option RepositoryMode) : StarBook :=
  { b with mode := fun p => if p = pid then (b.mode p).map f else b.mode p }

/-- A change of one account's star. -/
def setStar (b : StarBook) (account : Uuid) (pid : ℤ) (starred : Bool) : StarBook :=
  { b with stars := fun a p => if a = account ∧ p = pid then starred else b.stars a p }

/-- The listing of a run is dropped. -/
def drop (b : StarBook) (run : Uuid) : StarBook :=
  { b with staged := fun r p => b.staged r p && decide (r ≠ run) }

/-- The book after an event. -/
def next (b : StarBook) : BookEvent → StarBook
  | .catalogue pid =>
    { b with mode := fun p => if p = pid then some ((b.mode p).getD none) else b.mode p }
  | .star direction account pid =>
    (b.adjust pid direction.modeAfter).setStar account pid direction.starred
  | .claim account pid => b.setStar account pid true
  | .request account pid requested => b.adjust pid fun mode =>
    if (validateMode requested (b.stars account pid)).isSome then mode else some requested.mode
  | .track pid => b.adjust pid fun _ => some .tracked
  | .stage run pids =>
    { b with staged := fun r p => b.staged r p || (decide (r = run) && decide (p ∈ pids)) }
  | .discard run => b.drop run
  | .reconcile run account =>
    { b.drop run with
      mode := fun p => (b.mode p).map (reconciledMode (b.staged run p) (b.stars account p))
      stars := fun a p => if a = account then b.staged run p && (b.mode p).isSome else b.stars a p }
  | .forget accounts runs pids =>
    { mode := fun p => if pids p then none else b.mode p
      stars := fun a p => b.stars a p && !accounts a
      staged := fun r p => b.staged r p && !runs r }

/-- A change that leaves the mode as it is changes nothing. -/
theorem adjust_of_same {b : StarBook} {pid : ℤ} {f : Option RepositoryMode → Option RepositoryMode}
    (h : (b.mode pid).map f = b.mode pid) : b.adjust pid f = b := by
  apply StarBook.ext
  · funext p
    show (if p = pid then (b.mode p).map f else b.mode p) = b.mode p
    split
    · next heq => rw [heq, h]
    · rfl
  · rfl
  · rfl

/-! ### What an event says of a star -/

/-- What an event says of the star of one account and repository, if anything. -/
def evidence (account : Uuid) (pid : ℤ) (b : StarBook) : BookEvent → Option Bool
  | .star direction a p => if account = a ∧ pid = p then some direction.starred else none
  | .claim a p => if account = a ∧ pid = p then some true else none
  | .reconcile run a => if account = a then some (b.staged run pid && (b.mode pid).isSome) else none
  | .forget accounts _ _ => if accounts account then some false else none
  | _ => none

theorem stars_next (account : Uuid) (pid : ℤ) (b : StarBook) (e : BookEvent) :
    (b.next e).stars account pid = (b.evidence account pid e).getD (b.stars account pid) := by
  cases e with
  | catalogue | request | track | stage | discard => rfl
  | star direction a p | claim a p =>
    show (if account = a ∧ pid = p then _ else _) = Option.getD (if account = a ∧ pid = p then _ else _) _
    split
    · rfl
    · rfl
  | reconcile run a =>
    show (if account = a then _ else _) = Option.getD (if account = a then _ else _) _
    split
    · rfl
    · rfl
  | forget accounts runs pids =>
    show (b.stars account pid && !accounts account) = Option.getD (if accounts account then _ else _) _
    cases accounts account with
    | true => exact Bool.and_false _
    | false => exact Bool.and_true _

/-- **The last evidence decides a star.** -/
theorem stars_last (account : Uuid) (pid : ℤ) (b : StarBook) (events : List BookEvent) :
    (runFrom next b events).stars account pid =
      (Refinement.lastWrite next (evidence account pid) b events).getD (b.stars account pid) :=
  Refinement.read_runFrom (fun b => b.stars account pid) (stars_next account pid) b events

end StarBook

/-! ### The book of a database -/

/-- The star book a database keeps. -/
def starBook (db : Database) : StarBook where
  mode pid := (repositoryOf pid db).map (·.mode)
  stars account pid := starredFor account pid db
  staged run pid := stagedIn run pid db

section reads

variable (db : Database) (account run : Uuid) (pid : ℤ)

@[simp] theorem starBook_mode : (starBook db).mode pid = (repositoryOf pid db).map (·.mode) := rfl

@[simp] theorem starBook_stars : (starBook db).stars account pid = starredFor account pid db := rfl

@[simp] theorem starBook_staged : (starBook db).staged run pid = stagedIn run pid db := rfl

end reads

/-- Three tables make the book. -/
theorem starBook_of_eq {db db' : Database} (hrepos : db'.repositories = db.repositories)
    (hstars : db'.currentStarState = db.currentStarState)
    (hitems : db'.snapshotItems = db.snapshotItems) : starBook db' = starBook db := by
  have hfind : ∀ pid, repositoryOf pid db' = repositoryOf pid db := by
    intro pid
    rw [repositoryOf, repositoryOf, hrepos]
  simp only [starBook, starredFor, stagedIn, hfind, starredBy_of_eq hstars, hitems]

theorem starBook_of_agreeOff {ts : List Table} {db db' : Database} (h : AgreeOff ts db db')
    (hrepos : .repositories ∉ ts) (hstars : .currentStarState ∉ ts) (hitems : .snapshotItems ∉ ts) :
    starBook db' = starBook db :=
  starBook_of_eq (h .repositories hrepos) (h .currentStarState hstars) (h .snapshotItems hitems)

end GithubCatalog
