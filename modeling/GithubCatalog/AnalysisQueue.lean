import GithubCatalog.AnalysisLifecycle

/-!
# The requests of one owner and repository, in the order they were queued

Requests stand in their table in the order they were queued.  As long as completions arrive in that
order, the link of an owner and a repository names the last of their requests that completed.

* `requestsOf`, `completedOf` - the queue of an owner and a repository, and what of it completed;
* `InQueueOrder` - a fact settles no request behind which another one completed;
* `LinksLast` - the link names the last completed request, kept by every step in queue order.
-/

namespace GithubCatalog

open Relational Transact

/-! ### Queues -/

def RepositoryAnalysisRequest.isFor (owner : String) (repositoryId : Uuid)
    (r : RepositoryAnalysisRequest) : Bool :=
  decide (r.ownerRef = owner) && decide (r.repositoryId = repositoryId)

def RepositoryAnalysisRequest.isCompleted (r : RepositoryAnalysisRequest) : Bool :=
  decide (r.status = .completed)

/-- The requests of an owner for a repository, in queue order. -/
def requestsOf (owner : String) (repositoryId : Uuid) (db : Database) :
    List RepositoryAnalysisRequest :=
  db.repositoryAnalysisRequests.filter (·.isFor owner repositoryId)

/-- Those of them that completed. -/
def completedOf (owner : String) (repositoryId : Uuid) (db : Database) :
    List RepositoryAnalysisRequest :=
  (requestsOf owner repositoryId db).filter (·.isCompleted)

/-- The requests queued after the one a fact names. -/
def queuedAfter (k : Contracts) (fact : TerminalFact) (db : Database) :
    List RepositoryAnalysisRequest :=
  (db.repositoryAnalysisRequests.dropWhile fun r => !fact.names k r).tail

/-- No request of the owner and the repository that was queued after the named one has completed. -/
def InQueueOrder (k : Contracts) (fact : TerminalFact) (db : Database) : Prop :=
  ∀ q ∈ queuedAfter k fact db, q.isFor fact.owner fact.repositoryId = true → q.isCompleted = false

instance (k : Contracts) (fact : TerminalFact) (db : Database) : Decidable (InQueueOrder k fact db) :=
  inferInstanceAs (Decidable (∀ q ∈ queuedAfter k fact db, _))

theorem isFor_iff {owner : String} {repositoryId : Uuid} {r : RepositoryAnalysisRequest} :
    r.isFor owner repositoryId = true ↔ r.ownerRef = owner ∧ r.repositoryId = repositoryId := by
  simp [RepositoryAnalysisRequest.isFor]

theorem completedOf_eq {owner : String} {repositoryId : Uuid} {db : Database} :
    completedOf owner repositoryId db = db.repositoryAnalysisRequests.filter fun r =>
      r.isCompleted && r.isFor owner repositoryId :=
  List.filter_filter

/-- An update that moves no request to another queue updates the queue. -/
theorem requestsOf_updateWhere {owner : String} {repositoryId : Uuid} {db db' : Database}
    {p : RepositoryAnalysisRequest → Bool} {f : RepositoryAnalysisRequest → RepositoryAnalysisRequest}
    (hrequests : db'.repositoryAnalysisRequests = updateWhere p f db.repositoryAnalysisRequests)
    (hfor : ∀ r, (f r).isFor owner repositoryId = r.isFor owner repositoryId) :
    requestsOf owner repositoryId db' = updateWhere p f (requestsOf owner repositoryId db) := by
  rw [requestsOf, hrequests, filter_updateWhere hfor, ← requestsOf]

/-- What settling leaves of a request. -/
theorem settle_identity (now : Time) (status : TerminalStatus) (r : RepositoryAnalysisRequest) :
    (∀ owner repositoryId,
        (status.settle now r).isFor owner repositoryId = r.isFor owner repositoryId) ∧
      (status.settle now r).requestId = r.requestId ∧
      (status.settle now r).repositoryId = r.repositoryId ∧
      (status.settle now r).sourceRevision = r.sourceRevision := by
  cases status with
  | completed ref => exact ⟨fun _ _ => rfl, rfl, rfl, rfl⟩
  | failed code again => exact ⟨fun _ _ => rfl, rfl, rfl, rfl⟩

/-! ### One row at a time -/

/-- What a step does to the rows of one pair of tables: it changes one row, in place. -/
theorem Delivered.cases {k : Contracts} {now : Time} {messageId : Uuid} {fact : TerminalFact}
    {status : TerminalStatus} {c : Catalog} {db' : Database}
    (h : Delivered k now messageId fact status c.tables db') :
    (db'.repositoryAnalysisRequests = c.tables.repositoryAnalysisRequests ∧
      db'.repositoryAnalysisLinks = c.tables.repositoryAnalysisLinks) ∨
    ∃ s r u, c.tables.repositoryAnalysisRequests = s ++ r :: u ∧ fact.names k r = true ∧
      db'.repositoryAnalysisRequests = s ++ status.settle now r :: u ∧
      queuedAfter k fact c.tables = u ∧
      db'.repositoryAnalysisLinks = linksAfter now fact c.tables.repositoryAnalysisLinks status := by
  rcases h.links with ⟨r, hr, hnames, hlinks⟩ | ⟨hnone, hlinks⟩
  · right
    have hkey : ∀ q ∈ c.tables.repositoryAnalysisRequests,
        fact.names k q = decide (q.requestId = r.requestId) := by
      intro q hq
      rw [Bool.eq_iff_iff, decide_eq_true_iff]
      constructor
      · intro hq'
        rw [(names_iff.mp hq').1, (names_iff.mp hnames).1]
      · intro hid
        rw [c.valid.keys.requests.eq_of_mem hq hr hid]
        exact hnames
    obtain ⟨s, u, hsplit, hupdate⟩ := c.valid.keys.requests.updateWhere_split hr (status.settle now ·)
    refine ⟨s, r, u, hsplit, hnames, ?_, ?_, hlinks⟩
    · rw [h.requests, ← hupdate, updateWhere, updateWhere]
      apply List.map_congr_left
      intro q hq
      rw [hkey q hq]
    · have hunique := c.valid.keys.requests
      rw [hsplit] at hunique hkey
      have hbefore : ∀ q ∈ s, (!fact.names k q) = true := by
        intro q hq
        rw [hkey q (List.mem_append_left _ hq), Bool.not_eq_true', decide_eq_false_iff_not]
        intro hid
        rw [UniqueOn, List.map_append, List.map_cons] at hunique
        refine (List.nodup_cons.mp (List.nodup_middle.mp hunique)).1 ?_
        rw [← hid]
        exact List.mem_append_left _ (List.mem_map_of_mem hq)
      rw [queuedAfter, hsplit, List.dropWhile_append_of_pos hbefore,
        List.dropWhile_cons_of_neg (by simp [hnames]), List.tail_cons]
  · left
    refine ⟨?_, hlinks⟩
    rw [h.requests, updateWhere]
    conv_rhs => rw [← List.map_id c.tables.repositoryAnalysisRequests]
    apply List.map_congr_left
    intro q hq
    rw [hnone q hq]
    rfl

/-! ### The link names the last completed request -/

structure LinksLast (owner : String) (repositoryId : Uuid) (db : Database) : Prop where
  last : ∀ l ∈ db.repositoryAnalysisLinks, l.ownerRef = owner → l.repositoryId = repositoryId →
    ∃ r, (completedOf owner repositoryId db).getLast? = some r ∧ r.requestId = l.requestId
  present : completedOf owner repositoryId db ≠ [] → ∃ l ∈ db.repositoryAnalysisLinks,
    l.ownerRef = owner ∧ l.repositoryId = repositoryId

section kept

variable {k : Contracts} {owner : String} {repositoryId : Uuid} {c : Catalog} {db db' : Database}

theorem LinksLast.of_eq (h : LinksLast owner repositoryId db)
    (hcompleted : completedOf owner repositoryId db' = completedOf owner repositoryId db)
    (hlinks : ∀ l, l.ownerRef = owner → l.repositoryId = repositoryId →
      (l ∈ db'.repositoryAnalysisLinks ↔ l ∈ db.repositoryAnalysisLinks)) :
    LinksLast owner repositoryId db' where
  last := by
    intro l hl howner hrepository
    rw [hcompleted]
    exact h.last l ((hlinks l howner hrepository).mp hl) howner hrepository
  present := by
    rw [hcompleted]
    intro hsome
    obtain ⟨l, hl, howner, hrepository⟩ := h.present hsome
    exact ⟨l, (hlinks l howner hrepository).mpr hl, howner, hrepository⟩

/-- A row that neither was nor is completed. -/
theorem completedOf_replaced {s u : List RepositoryAnalysisRequest} {r r' : RepositoryAnalysisRequest}
    (hold : db.repositoryAnalysisRequests = s ++ r :: u)
    (hnew : db'.repositoryAnalysisRequests = s ++ r' :: u)
    (hr : (r.isCompleted && r.isFor owner repositoryId) = false)
    (hr' : (r'.isCompleted && r'.isFor owner repositoryId) = false) :
    completedOf owner repositoryId db' = completedOf owner repositoryId db := by
  rw [completedOf_eq, completedOf_eq, hold, hnew, List.filter_append, List.filter_append,
    List.filter_cons_of_neg (by simp [hr']), List.filter_cons_of_neg (by simp [hr])]

theorem LinksLast.queued (h : LinksLast owner repositoryId db) {new : List RepositoryAnalysisRequest}
    (unsent : ∀ r ∈ new, r.status = .queued ∧ r.outboxMessageId = none)
    (requests : db'.repositoryAnalysisRequests = db.repositoryAnalysisRequests ++ new)
    (links : db'.repositoryAnalysisLinks = db.repositoryAnalysisLinks) :
    LinksLast owner repositoryId db' := by
  refine h.of_eq ?_ fun l _ _ => by rw [links]
  have hnew : new.filter (fun r => r.isCompleted && r.isFor owner repositoryId) = [] := by
    refine List.filter_eq_nil_iff.mpr fun r hr => ?_
    simp [RepositoryAnalysisRequest.isCompleted, (unsent r hr).1]
  rw [completedOf_eq, completedOf_eq, requests, List.filter_append, hnew, List.append_nil]

theorem LinksLast.sent (h : LinksLast owner repositoryId c.tables) {r : RepositoryAnalysisRequest}
    {messageId : Uuid} (hr : r ∈ c.tables.repositoryAnalysisRequests) (hqueued : r.status = .queued)
    (requests : db'.repositoryAnalysisRequests =
      updateWhere (fun q => decide (q.requestId = r.requestId)) (·.dispatchedAs messageId)
        c.tables.repositoryAnalysisRequests)
    (links : db'.repositoryAnalysisLinks = c.tables.repositoryAnalysisLinks) :
    LinksLast owner repositoryId db' := by
  refine h.of_eq ?_ fun l _ _ => by rw [links]
  obtain ⟨s, u, hsplit, hupdate⟩ :=
    c.valid.keys.requests.updateWhere_split hr (·.dispatchedAs messageId)
  refine completedOf_replaced hsplit (requests.trans hupdate) ?_ ?_
  · simp [RepositoryAnalysisRequest.isCompleted, hqueued]
  · simp [RepositoryAnalysisRequest.isCompleted, RepositoryAnalysisRequest.dispatchedAs]

/-- The links of another owner or repository. -/
theorem mem_linksAfter_other {now : Time} {fact : TerminalFact} {status : TerminalStatus}
    {links : List RepositoryAnalysisLink} {l : RepositoryAnalysisLink}
    (h : ¬ (l.ownerRef = fact.owner ∧ l.repositoryId = fact.repositoryId)) :
    l ∈ linksAfter now fact links status ↔ l ∈ links := by
  cases status with
  | failed code again => exact Iff.rfl
  | completed ref =>
    have hother : l ≠ linkRow now fact ref := by
      rintro rfl
      exact h ⟨rfl, rfl⟩
    have hnot : (decide (l.ownerRef = fact.owner) && decide (l.repositoryId = fact.repositoryId)) =
        false := by
      rw [Bool.eq_false_iff]
      intro hsame
      simp only [Bool.and_eq_true, decide_eq_true_eq] at hsame
      exact h hsame
    rw [linksAfter, mem_upsertWhere]
    simp only [hnot, hother, and_true, and_false, or_false, exists_false]

/-- The link of the fact's own owner and repository. -/
theorem mem_linksAfter_own {now : Time} {fact : TerminalFact} {ref : String}
    {links : List RepositoryAnalysisLink} {l : RepositoryAnalysisLink}
    (howner : l.ownerRef = fact.owner) (hrepository : l.repositoryId = fact.repositoryId) :
    l ∈ linksAfter now fact links (.completed ref) ↔ l = linkRow now fact ref := by
  rw [linksAfter, mem_upsertWhere]
  simp only [howner, hrepository, decide_true, Bool.and_self, Bool.true_eq_false, and_false, false_or]
  constructor
  · rintro (⟨_, _, _, rfl⟩ | ⟨-, rfl⟩)
    · rfl
    · rfl
  · intro hl
    by_cases hany : ∀ a ∈ links,
        (decide (a.ownerRef = fact.owner) && decide (a.repositoryId = fact.repositoryId)) = false
    · exact .inr ⟨hany, hl⟩
    · push Not at hany
      obtain ⟨a, ha, hkey⟩ := hany
      exact .inl ⟨a, ha, Bool.eq_true_of_not_eq_false hkey, hl⟩

/-- **Deliveries in queue order.**  A completion moves the link to the request it completes. -/
theorem LinksLast.delivered (h : LinksLast owner repositoryId c.tables) {now : Time}
    {messageId : Uuid} {fact : TerminalFact} {status : TerminalStatus}
    (effect : Delivered k now messageId fact status c.tables db')
    (horder : ∀ ref, status = .completed ref → InQueueOrder k fact c.tables) :
    LinksLast owner repositoryId db' := by
  rcases effect.cases with ⟨hrequests, hlinks⟩ | ⟨s, r, u, hsplit, hnames, hnew, hafter, hlinks⟩
  · refine h.of_eq ?_ fun l _ _ => by rw [hlinks]
    rw [completedOf_eq, completedOf_eq, hrequests]
  obtain ⟨hid, howner, hrepository, -, -, hpending⟩ := names_iff.mp hnames
  have hopen : (r.isCompleted && r.isFor owner repositoryId) = false := by
    simp [RepositoryAnalysisRequest.isCompleted, hpending]
  have hmove : (status.settle now r).isFor owner repositoryId = r.isFor owner repositoryId :=
    (settle_identity now status r).1 owner repositoryId
  by_cases hown : fact.owner = owner ∧ fact.repositoryId = repositoryId
  · cases status with
    | failed code again =>
      refine h.of_eq (completedOf_replaced hsplit hnew hopen ?_) fun l _ _ => by rw [hlinks]; rfl
      simp [RepositoryAnalysisRequest.isCompleted, TerminalStatus.settle]
    | completed ref =>
      obtain ⟨rfl, rfl⟩ := hown
      have hlast : completedOf fact.owner fact.repositoryId db' =
          completedOf fact.owner fact.repositoryId
            { c.tables with repositoryAnalysisRequests := s } ++
              [TerminalStatus.settle now r (.completed ref)] := by
        have hbehind : u.filter (fun q => q.isCompleted &&
            q.isFor fact.owner fact.repositoryId) = [] := by
          refine List.filter_eq_nil_iff.mpr fun q hq => ?_
          rw [← hafter] at hq
          have hopen := horder ref rfl q hq
          cases hfor : q.isFor fact.owner fact.repositoryId with
          | true => simp [hopen hfor]
          | false => simp
        rw [completedOf_eq, completedOf_eq, hnew, List.filter_append, List.filter_cons_of_pos, hbehind]
        rw [hmove, isFor_iff.mpr ⟨howner, hrepository⟩]
        rfl
      constructor
      · intro l hl hlowner hlrepository
        rw [hlinks, mem_linksAfter_own hlowner hlrepository] at hl
        refine ⟨TerminalStatus.settle now r (.completed ref), ?_, ?_⟩
        · rw [hlast, List.getLast?_concat]
        · rw [hl]
          exact hid
      · intro _
        refine ⟨linkRow now fact ref, ?_, rfl, rfl⟩
        rw [hlinks, mem_linksAfter_own rfl rfl]
  · have hother : r.isFor owner repositoryId = false := by
      rw [Bool.eq_false_iff]
      intro hfor
      rw [isFor_iff, howner, hrepository] at hfor
      exact hown hfor
    refine h.of_eq (completedOf_replaced hsplit hnew hopen ?_) fun l hlowner hlrepository => ?_
    · rw [hmove, hother, Bool.and_false]
    · rw [hlinks]
      refine mem_linksAfter_other ?_
      rw [hlowner, hlrepository]
      exact fun hsame => hown ⟨hsame.1.symm, hsame.2.symm⟩

end kept

/-! ### A watched repository

The concrete histories of analyses start here: a repository without a README, and a watch that starts
at that revision. -/

/-- `Uuid::parse_str`, of a hyphenated text. -/
def uuidOfText (text : String) : Uuid :=
  BitVec.ofNat 128 ((text.toList.filter (· ≠ '-')).foldl
    (fun n c => 16 * n + TextCode.hexValue c) 0)

/-- The sample contracts, with README revisions told apart and requests that read back. -/
def revisionContracts : Contracts :=
  { sampleContracts with
    jsonBytes := fun value =>
      if (value.pathText ("readme" :: readmeDigestPath)).isSome ||
        (value.pathText ("source_revision" :: "readme" :: readmeDigestPath)).isSome then [1] else []
    attributesValue := fun attributes => .obj [("repository_full_name", .str attributes.repositoryFullName),
      ("description", textValue attributes.description),
      ("primary_language", textValue attributes.primaryLanguage)]
    revisionValue := fun revision => .obj [("attributes_digest", .str revision.attributesDigestHex),
      ("readme", sampleContracts.readmeValue revision.readme)]
    requestValue := fun request => .obj [("owner", .str request.owner),
      ("repository_id", .str (uuidText request.repositoryId)),
      ("github_repository_numeric_id", .num (toString request.githubRepositoryNumericId)),
      ("request_id", .str (uuidText request.requestId)),
      ("attributes_digest", .str request.sourceRevision.attributesDigestHex),
      ("readme", sampleContracts.readmeValue request.sourceRevision.readme),
      ("repository_full_name", .str request.repositoryAttributes.repositoryFullName),
      ("description", textValue request.repositoryAttributes.description),
      ("primary_language", textValue request.repositoryAttributes.primaryLanguage),
      ("idempotency_key", .str request.idempotencyKeyHex)]
    requestOf := fun value => do
      let owner ← value.memberText "owner"
      let repositoryId ← (value.memberText "repository_id").map uuidOfText
      let numericId ← (value.memberText "github_repository_numeric_id").bind integerOf
      let requestId ← (value.memberText "request_id").map uuidOfText
      let digest ← value.memberText "attributes_digest"
      let readme ← (value.member "readme").bind sampleContracts.readmeOf
      let fullName ← value.memberText "repository_full_name"
      let key ← value.memberText "idempotency_key"
      pure ⟨owner, repositoryId, numericId.toNat, requestId, ⟨digest, readme⟩,
        ⟨fullName, value.memberText "description", value.memberText "primary_language"⟩, key⟩
    requestedEnvelope := fun messageId _ request => some (.obj [("event_id", .str (uuidText messageId)),
      ("payload", .obj [("owner", .str request.owner),
        ("request_id", .str (uuidText request.requestId))])]) }

/-- The owner of the watch. -/
def watchOwner : String := "user:00000000-0000-0000-0000-000000000001"

def watchedBody : ProviderRepositoryBody := ⟨7, "owner/name", none, none, 0, [], none, none⟩

/-- The revision without a README, and the one with an empty README. -/
def bareReadme : ReadmeRevision := .absent .notFound

def emptyReadme : ReadmeRevision :=
  .present "e3b0c44298fc1c149afbf4c8996fb92427ae41e4649b934ca495991b7852b855" 0

/-- Repository 5, stored without a README, watched from there on. -/
def watchedCatalog : Catalog :=
  Runs.runFrom (step revisionContracts) emptyCatalog
    [.upsertRepository 5 7, .applyFreshSource 20 0 5 watchedBody none bareReadme none,
      .registerWatch 30 watchOwner 5 .current]

/-- The terminal fact of a request about a revision. -/
def factOf (requestId : Uuid) (readme : ReadmeRevision) : TerminalFact :=
  ⟨watchOwner, 5, 7, requestId, ⟨sampleContracts.sha256Hex [], readme⟩, .obj []⟩

end GithubCatalog
