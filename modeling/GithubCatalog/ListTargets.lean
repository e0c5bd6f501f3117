import GithubCatalog.StarConvergence
import Mathlib.Data.List.Dedup
import Mathlib.Data.List.Induction

/-!
# Which lists a membership write changes

`set_repository_lists` replaces the complete list set of a repository.  A membership mutation computes
the set it writes from the memberships the catalog records, reads them before it resolves the node,
and holds nothing until the write.

* `desiredListIds` keeps every list it was given but the target (`mem_desiredListIds`);
* `Trace` - along every run, what a call sends is what the catalog held when the call read it, and a
  confirmed write met the provider it names;
* `listWrite_targetOnly_iff` - the write changes the target list only exactly when the recorded
  memberships are, apart from the target, the provider's at the moment of the write;
* `listWrite_drops_unrecorded` - a list that the catalog had not seen yet.
-/

namespace GithubCatalog

open Relational Transact Runs

/-- The set a membership write sends. -/
theorem mem_desiredListIds {change : MembershipChange} {target l : String} {live : List String} :
    l ∈ desiredListIds change target live ↔
      (l ≠ target ∧ l ∈ live) ∨ (l = target ∧ change = .add) := by
  unfold desiredListIds
  rw [(List.perm_insertionSort _ _).mem_iff, List.mem_dedup]
  cases change with
  | add =>
    dsimp only
    split
    · next hin =>
      have htarget : target ∈ live := by simpa using hin
      constructor
      · intro hl
        by_cases heq : l = target
        · exact .inr ⟨heq, rfl⟩
        · exact .inl ⟨heq, hl⟩
      · rintro (⟨-, hl⟩ | ⟨rfl, -⟩)
        · exact hl
        · exact htarget
    · rw [List.mem_append, List.mem_singleton]
      constructor
      · rintro (hl | rfl)
        · by_cases heq : l = target
          · exact .inr ⟨heq, rfl⟩
          · exact .inl ⟨heq, hl⟩
        · exact .inr ⟨rfl, rfl⟩
      · rintro (⟨-, hl⟩ | ⟨rfl, -⟩)
        · exact .inl hl
        · exact .inr rfl
  | remove =>
    rw [List.mem_filter]
    simp [and_comm]

/-! ### Two moments of a run -/

section trace

variable (k : Contracts) (start : System) (n : ℕ)

/-- The state after a part of the run. -/
def after (events : List Event) : System := runFrom (System.step k) start events

/-- The call `n` after a part of the run. -/
def callAfter (events : List Event) : Option Mutation := (after k start events).mutations[n]?

/-- At some moment up to `events`, the call read the memberships `live` for its target. -/
def ReadAt (events : List Event) (change : MembershipChange) (listId : Uuid) (target : String)
    (live : List String) : Prop :=
  ∃ reads m, reads <+: events ∧ callAfter k start n reads = some m ∧
    m.phase = .memberships change listId target ∧
    live = liveMemberListIds m.context.accountId m.pid (after k start reads).world.catalog.tables

/-- At some moment up to `events`, after such a read, the call wrote the lists of `node`. -/
def WroteAt (events : List Event) (change : MembershipChange) (listId : Uuid) (target : String)
    (live : List String) (node : ℤ) : Prop :=
  ∃ writes m i, writes ++ [.advance n i] <+: events ∧
    ReadAt k start n writes change listId target live ∧ callAfter k start n writes = some m ∧
    m.phase = .write (.lists change listId target live) node ∧
    (after k start (writes ++ [.advance n i])).world.upstream =
      (after k start writes).world.upstream.setLists m.context.accountId node
        (desiredListIds change target live)

/-- What the phase of the call `n` tells about the run so far. -/
def Trace (events : List Event) : Phase → Prop
  | .resolve (.lists change listId target live) | .write (.lists change listId target live) _ =>
    ReadAt k start n events change listId target live
  | .persist ⟨.lists change listId target live, node, _⟩
  | .outraced ⟨.lists change listId target live, node, _⟩
  | .returned _ (some ⟨.lists change listId target live, node, _⟩) =>
    WroteAt k start n events change listId target live node
  | .returned status none => status ≠ .applied
  | _ => True

variable {k start n}

theorem ReadAt.mono {events : List Event} {change : MembershipChange} {listId : Uuid} {target : String}
    {live : List String} (h : ReadAt k start n events change listId target live) (e : Event) :
    ReadAt k start n (events ++ [e]) change listId target live := by
  obtain ⟨reads, m, hprefix, hrest⟩ := h
  exact ⟨reads, m, hprefix.trans (List.prefix_append _ _), hrest⟩

theorem WroteAt.mono {events : List Event} {change : MembershipChange} {listId : Uuid}
    {target : String} {live : List String} {node : ℤ}
    (h : WroteAt k start n events change listId target live node) (e : Event) :
    WroteAt k start n (events ++ [e]) change listId target live node := by
  obtain ⟨writes, m, i, hprefix, hrest⟩ := h
  exact ⟨writes, m, i, hprefix.trans (List.prefix_append _ _), hrest⟩

theorem Trace.mono {events : List Event} {phase : Phase} (h : Trace k start n events phase)
    (e : Event) : Trace k start n (events ++ [e]) phase := by
  unfold Trace at h ⊢
  split at h
  · exact h.mono e
  · exact h.mono e
  · exact h.mono e
  · exact h.mono e
  · exact h.mono e
  · exact h
  · trivial

theorem after_snoc (events : List Event) (e : Event) :
    after k start (events ++ [e]) = (after k start events).step k e := by
  rw [after, runFrom_append]
  rfl

/-- The call takes the step of an event, or stays where it is. -/
theorem callAfter_snoc (events : List Event) (e : Event) :
    (∃ i, e = .advance n i ∧ callAfter k start n (events ++ [e]) =
        (callAfter k start n events).map (·.next i (after k start events).world)) ∨
      callAfter k start n (events ++ [e]) = callAfter k start n events := by
  unfold callAfter
  rw [after_snoc]
  cases e with
  | catalog op => exact .inr rfl
  | upstream u => exact .inr rfl
  | adjust j i => rw [System.step, System.mutations_adjust]; exact .inr rfl
  | advance j i =>
    rw [System.step, System.mutations_advance]
    by_cases hj : n = j
    · subst hj
      rw [if_pos rfl]
      exact .inl ⟨i, rfl, rfl⟩
    · rw [if_neg hj]
      exact .inr rfl

/-- **One step of the traced call.** -/
theorem trace_next {events : List Event} {m : Mutation} {i : StepInput}
    (hcall : callAfter k start n events = some m) (hfollows : m.phase.Follows m.request)
    (h : Trace k start n events m.phase) :
    Trace k start n (events ++ [.advance n i]) (m.step i (after k start events).world).1 := by
  have hkeep := h.mono (.advance n i)
  have hworld : (after k start (events ++ [.advance n i])).world =
      (m.step i (after k start events).world).2 := by
    rw [after_snoc, System.step, System.advance]
    rw [callAfter] at hcall
    rw [hcall]
  have hturn := m.turn i (after k start events).world
  obtain ⟨next, hnext⟩ : ∃ next, (m.step i (after k start events).world).1 = next := ⟨_, rfl⟩
  rw [hnext] at hturn ⊢
  cases hturn with
  | finished => exact hkeep
  | failing | concluding | authorized | unclaimed | unexcluded | targeted => trivial
  | replayed => exact fun heq => by cases heq
  | concluded hphase =>
    rw [hphase] at hfollows
    rintro rfl
    cases hfollows.2
  | dispatched =>
    unfold Mutation.dispatch
    split
    · trivial
    · trivial
    · trivial
    · trivial
  | computed hphase => exact ⟨events, m, List.prefix_append _ _, hcall, hphase, rfl⟩
  | @resolved plan node hphase =>
    rw [hphase] at hkeep
    cases plan with
    | star direction => trivial
    | lists change listId target live => exact hkeep
  | @confirmed plan node hphase =>
    cases plan with
    | star direction => trivial
    | lists change listId target live =>
      rw [hphase] at h
      refine ⟨events, m, i, List.prefix_refl _, h, hcall, hphase, ?_⟩
      rw [hworld]
      exact Mutation.confirmed_lists hphase hnext
  | @committed wrote status c hphase =>
    rw [hphase] at hkeep
    obtain ⟨plan, node, before⟩ := wrote
    cases plan with
    | star direction => trivial
    | lists change listId target live => exact hkeep
  | @outraced wrote hphase =>
    rw [hphase] at hkeep
    obtain ⟨plan, node, before⟩ := wrote
    cases plan with
    | star direction => trivial
    | lists change listId target live => exact hkeep

/-- **Whole runs.**  A call that starts at its beginning keeps its context and request, and is traced
along every run. -/
theorem trace_run (hstart : ∀ m ∈ start.mutations, m.phase = .authorize) (events : List Event) :
    ∀ m, callAfter k start n events = some m → m.phase.Follows m.request ∧
      Trace k start n events m.phase ∧
      ∃ m₀, start.mutations[n]? = some m₀ ∧ m.context = m₀.context ∧ m.request = m₀.request := by
  induction events using List.reverseRecOn with
  | nil =>
    intro m hm
    rw [hstart m (List.mem_of_getElem? hm)]
    exact ⟨trivial, trivial, m, hm, rfl, rfl⟩
  | append_singleton events e ih =>
    intro m hm
    rcases @callAfter_snoc k start n events e with ⟨i, rfl, hnext⟩ | hsame
    · rw [hnext] at hm
      obtain ⟨m₁, hm₁, rfl⟩ := Option.map_eq_some_iff.mp hm
      obtain ⟨hfollows, htrace, hfrom⟩ := ih m₁ hm₁
      exact ⟨Mutation.follows_step hfollows i _, trace_next hm₁ hfollows htrace, hfrom⟩
    · rw [hsame] at hm
      obtain ⟨hfollows, htrace, hfrom⟩ := ih m hm
      exact ⟨hfollows, htrace.mono e, hfrom⟩

/-- Two moments of one call have one context and one request. -/
theorem callAfter_static (hstart : ∀ m ∈ start.mutations, m.phase = .authorize)
    {events events' : List Event} {m m' : Mutation} (h : callAfter k start n events = some m)
    (h' : callAfter k start n events' = some m') :
    m.context = m'.context ∧ m.pid = m'.pid := by
  obtain ⟨-, -, m₀, hm₀, hcontext, hrequest⟩ := trace_run hstart events m h
  obtain ⟨-, -, m₀', hm₀', hcontext', hrequest'⟩ := trace_run hstart events' m' h'
  rw [hm₀] at hm₀'
  cases hm₀'
  exact ⟨hcontext.trans hcontext'.symm, by rw [Mutation.pid, hrequest, ← hrequest', Mutation.pid]⟩

end trace

/-! ### The write and the other lists -/

/-- Apart from the target list, the repository is in the lists it was in. -/
def TargetOnly (account : Uuid) (node : ℤ) (target : String) (u u' : Upstream) : Prop :=
  ∀ l, l ≠ target → (l ∈ u'.lists account node ↔ l ∈ u.lists account node)

/-- **A membership write changes its target list only exactly when the catalog was right.**  Along every
interleaving of any calls with any catalog operations and any changes at the provider, a list mutation
that ends `Applied` read the memberships the catalog held at one moment, wrote them with its target
added or removed at a later one, and then: the target's membership is as requested, and every other
membership is as it was exactly when what it had read is, apart from the target, what the provider held
at the moment of the write. -/
theorem listWrite_targetOnly_iff (k : Contracts) (start : System) (events : List Event) (n : ℕ)
    (m : Mutation) (change : MembershipChange) (listId : Uuid)
    (hstart : ∀ m ∈ start.mutations, m.phase = .authorize)
    (hcall : callAfter k start n events = some m)
    (hlist : m.request.membership = some (change, listId))
    (hdone : m.phase.status = some .applied) :
    ∃ reads writes i target live node, reads <+: writes ∧ writes ++ [.advance n i] <+: events ∧
      (callAfter k start n reads).map (·.phase) = some (.memberships change listId target) ∧
      live = liveMemberListIds m.context.accountId m.pid
        (after k start reads).world.catalog.tables ∧
      (callAfter k start n writes).map (·.phase) =
        some (.write (.lists change listId target live) node) ∧
      (target ∈ (after k start (writes ++ [.advance n i])).world.upstream.lists m.context.accountId node ↔
        change = .add) ∧
      (TargetOnly m.context.accountId node target (after k start writes).world.upstream
          (after k start (writes ++ [.advance n i])).world.upstream ↔
        ∀ l, l ≠ target →
          (l ∈ live ↔ l ∈ (after k start writes).world.upstream.lists m.context.accountId node)) := by
  obtain ⟨hfollows, htrace, -⟩ := trace_run hstart events m hcall
  -- an `Applied` call has written its plan
  obtain ⟨target, live, node, hwrote⟩ : ∃ target live node,
      WroteAt k start n events change listId target live node := by
    cases hphase : m.phase with
    | returned status wrote =>
      rw [hphase] at hfollows htrace hdone
      cases wrote with
      | none => exact absurd (Option.some.inj hdone) htrace
      | some wrote =>
        obtain ⟨plan, node, before⟩ := wrote
        obtain ⟨target, live, hplan⟩ := Plan.Suits.eq_lists hfollows hlist
        dsimp only at hplan
        subst hplan
        exact ⟨target, live, node, htrace⟩
    | outraced wrote => rw [hphase] at hdone; cases hdone
    | _ => rw [hphase] at hdone; cases hdone
  obtain ⟨writes, m₂, i, hwrites, ⟨reads, m₁, hreads, hcall₁, hphase₁, hlive⟩, hcall₂, hphase₂,
    hafter⟩ := hwrote
  obtain ⟨hcontext₁, hpid₁⟩ := callAfter_static hstart hcall₁ hcall
  obtain ⟨hcontext₂, -⟩ := callAfter_static hstart hcall₂ hcall
  rw [hcontext₁, hpid₁] at hlive
  rw [hcontext₂] at hafter
  have hsets : (after k start (writes ++ [.advance n i])).world.upstream.lists m.context.accountId node =
      desiredListIds change target live := by
    rw [hafter, Upstream.lists_setLists, if_pos ⟨rfl, rfl⟩]
  refine ⟨reads, writes, i, target, live, node, hreads, hwrites, ?_, hlive, ?_, ?_, ?_⟩
  · rw [hcall₁, Option.map_some, hphase₁]
  · rw [hcall₂, Option.map_some, hphase₂]
  · rw [hsets, mem_desiredListIds]
    simp
  · unfold TargetOnly
    rw [hsets]
    refine forall_congr' fun l => imp_congr_right fun hl => ?_
    rw [mem_desiredListIds]
    simp [hl]

/-! ### A list the catalog had not seen -/

/-- A catalog whose last list snapshot saw repository 101 in "list-a" only. -/
def listedWorld (lists : List String) : World where
  catalog := runFrom (step sampleContracts) emptyCatalog
    (connectOwners ++ [.upsertRepository 1 101] ++ listSnapshot 10 1 "list-a")
  upstream := {
    paths := fun _ _ => some 101
    stars := fun _ _ => false
    lists := fun _ _ => lists }

/-- The removal from "list-a". -/
def removal (lists : List String) : System where
  world := listedWorld lists
  mutations := [⟨⟨1, "owner-a", .web⟩, .listMemberRemove ⟨101, "owner", "name"⟩ 210 "list-key",
    .authorize⟩]
  modes := []

/-- Nine steps of it. -/
def nineSteps : List Event := (List.range 9).map fun n => .advance 0 (inputAt n)

theorem removal_starts (lists : List String) :
    ∀ m ∈ (removal lists).mutations, m.phase = .authorize := by
  intro m hm
  rw [List.mem_singleton.mp hm]

/-- The removal where the catalog is right. -/
theorem listWrite_targetOnly_iff_listed :
    ∃ (writes : List Event) (i : StepInput) (target : String) (live : List String) (node : ℤ),
      writes ++ [.advance 0 i] <+: nineSteps ∧
      (TargetOnly 1 node target (after sampleContracts (removal ["list-a"]) writes).world.upstream
          (after sampleContracts (removal ["list-a"]) (writes ++ [.advance 0 i])).world.upstream ↔
        ∀ l, l ≠ target → (l ∈ live ↔
          l ∈ (after sampleContracts (removal ["list-a"]) writes).world.upstream.lists 1 node)) := by
  have hdone : ((callAfter sampleContracts (removal ["list-a"]) 0 nineSteps).bind
      (·.phase.status)) = some .applied := by decide +kernel
  have hlist : ((callAfter sampleContracts (removal ["list-a"]) 0 nineSteps).bind
      (·.request.membership)) = some (.remove, 210) := by decide +kernel
  have hacts : ((callAfter sampleContracts (removal ["list-a"]) 0 nineSteps).map
      (·.context.accountId)) = some 1 := by decide +kernel
  obtain ⟨m, hcall, hstatus⟩ := Option.bind_eq_some_iff.mp hdone
  rw [hcall] at hlist hacts
  obtain ⟨reads, writes, i, target, live, node, -, hwrites, -, -, -, -, hiff⟩ :=
    listWrite_targetOnly_iff sampleContracts (removal ["list-a"]) nineSteps 0 m .remove 210
      (removal_starts _) hcall hlist hstatus
  have haccount : m.context.accountId = 1 := Option.some.inj hacts
  rw [haccount] at hiff
  exact ⟨writes, i, target, live, node, hwrites, hiff⟩

/-- **An unrecorded list is dropped.**  The provider also has the repository in "list-b", which the
catalog has not seen: the removal from "list-a" ends `Applied`, and the repository is in no list. -/
theorem listWrite_drops_unrecorded :
    ((callAfter sampleContracts (removal ["list-a", "list-b"]) 0 nineSteps).bind (·.phase.status)) =
        some .applied ∧
      ¬ TargetOnly 1 101 "list-a" (removal ["list-a", "list-b"]).world.upstream
        (after sampleContracts (removal ["list-a", "list-b"]) nineSteps).world.upstream := by
  refine ⟨by decide +kernel, fun h => ?_⟩
  have hgone : "list-b" ∉
      (after sampleContracts (removal ["list-a", "list-b"]) nineSteps).world.upstream.lists 1 101 := by
    decide +kernel
  exact hgone ((h "list-b" (by decide)).mpr (by decide))

end GithubCatalog
