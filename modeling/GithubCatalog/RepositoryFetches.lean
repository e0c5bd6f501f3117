import GithubCatalog.MutationExecution
import GithubCatalog.ProviderGateway
import GithubCatalog.RepositoryActions

/-!
# Flows that fetch one repository (`observe.rs`, `repository_api.rs`)

An observation, an action and a preview acquire from the ledger and fetch the repository.  A fresh body
is recorded by the function the first two share, which fetches the README.  Each runs statement by
statement; the interactions of a flow are the transitions of its phase.

* `RecordPhase.step` - `record_fresh_repository`;
* `ObservationPhase.step` - `observe_repository`;
* `ActionStage.step` - the action route between its claim and its completion;
* `PreviewPhase.step` - the preview route.
-/

namespace GithubCatalog

open Transact

/-- What the world contributes to one step: the clock, the fate of the statement, the identifiers it
draws, the ledger's decision and the provider's replies. -/
structure FetchInput where
  now : Time
  fate : Fate
  freshId : Uuid
  ids : ℕ → Uuid
  acquired : Bool
  repository : Except ProviderError FetchOutcome
  readme : Except ProviderError ReadmeFetchOutcome

/-- The next phase after a statement. -/
def settleFetch {P α : Type} (answer : Except CatalogError α × Catalog) (failed : P) (f : α → P) :
    P × Catalog :=
  match answer with
  | (.ok a, c) => (f a, c)
  | (.error _, c) => (failed, c)

/-! ### Recording a fresh repository -/

/-- `stored_validators`. -/
def storedValidators (repositoryId : Uuid) (db : Database) :
    Option String × Option String × Option Jsonb :=
  match db.repositoryMetadata.find? fun m => decide (m.repositoryId = repositoryId) with
  | none => (none, none, none)
  | some m => (m.providerEtag, m.readmeEtag, some m.readmeRevision)

/-- What `record_fresh_repository` is asked to record. -/
structure FreshSource where
  repositoryId : Uuid
  body : ProviderRepositoryBody
  etag : Option String
  trackFor : Option String

inductive RecordPhase where
  | validating
  | acquiring (etag : Option String) (revision : Option Jsonb)
  | fetching (etag : Option String) (revision : Option Jsonb)
  | storing (bytes : List UInt8) (etag : Option String)
  | applying (readme : ReadmeRevision) (etag : Option String)
  | tracking (owner : String) (applied : AppliedOutcome)
  | evaluating (applied : AppliedOutcome)
  | ended (result : Except ObserveFault AppliedOutcome)

namespace RecordPhase

/-- The phase after a README reply. -/
def afterReadme (k : Contracts) (etag : Option String) (revision : Option Jsonb) :
    Except ProviderError ReadmeFetchOutcome → RecordPhase
  | .error _ => .ended (.error .provider)
  | .ok (.fresh bytes freshEtag) => .storing bytes freshEtag
  | .ok .notModified =>
    match revision.bind k.readmeOf with
    | some readme => .applying readme etag
    | none => .ended (.error .catalog)
  | .ok .notFound => .applying (.absent .notFound) none
  | .ok .notAuthorized => .applying (.absent .notAuthorized) none

/-- The phase after the revision was applied. -/
def afterApply (s : FreshSource) (applied : AppliedOutcome) : RecordPhase :=
  match s.trackFor with
  | some owner => .tracking owner applied
  | none => .evaluating applied

/-- The next statement of `record_fresh_repository`. -/
def step (k : Contracts) (s : FreshSource) (i : FetchInput) (c : Catalog) :
    RecordPhase → RecordPhase × Catalog
  | validating =>
    settleFetch (i.fate.run (select (storedValidators s.repositoryId)) c) (.ended (.error .catalog))
      fun v => .acquiring v.2.1 v.2.2
  | acquiring etag revision =>
    (if i.acquired then .fetching etag revision else .ended (.error .rateLimited), c)
  | fetching etag revision => (afterReadme k etag revision i.readme, c)
  | storing bytes etag =>
    settleFetch (i.fate.run (storeReadme k bytes) c) (.ended (.error .catalog)) fun digest =>
      .applying (.present digest bytes.length) etag
  | applying readme etag =>
    settleFetch (i.fate.run (applyFreshSource k i.freshId i.now s.repositoryId s.body s.etag readme
      etag) c) (.ended (.error .catalog)) (afterApply s)
  | tracking owner applied =>
    settleFetch (i.fate.run (registerRepositoryAnalysisWatch i.freshId owner s.repositoryId
      .unevaluated) c) (.ended (.error .catalog)) fun _ => .evaluating applied
  | evaluating applied =>
    settleFetch (i.fate.run (evaluateMetadataWatches k i.ids i.now s.repositoryId) c)
      (.ended (.error .catalog)) fun _ => .ended (.ok applied)
  | ended result => (.ended result, c)

end RecordPhase

/-! ### Observing a repository -/

inductive ObserveOutcome where
  | rateLimited
  | observed (repositoryId : Uuid)
  | notModified (repositoryId : Uuid)
  | movedTo (target : OwnerName)

/-- `OwnerName::to_string`. -/
def OwnerName.text (name : OwnerName) : String := name.owner ++ "/" ++ name.name

inductive ObservationPhase where
  | acquiring
  | resolving
  | validating (known : Uuid)
  | fetching (known : Option Uuid) (etag : Option String)
  | identifying (body : ProviderRepositoryBody) (etag : Option String)
  | naming (repositoryId : Uuid) (body : ProviderRepositoryBody) (etag : Option String)
  | recording (s : FreshSource) (phase : RecordPhase)
  | refreshing (repositoryId : Uuid)
  | evaluating (repositoryId : Uuid)
  | ended (result : Except ObserveFault ObserveOutcome)

namespace ObservationPhase

/-- The phase after a reply for the repository. -/
def afterFetch (known : Option Uuid) : Except ProviderError FetchOutcome → ObservationPhase
  | .error _ => .ended (.error .provider)
  | .ok (.fresh body etag _) => .identifying body etag
  | .ok .notModified => known.elim (.ended (.error .catalog)) .refreshing
  | .ok (.movedPermanently target) => .ended (.ok (.movedTo target))

/-- The phase after a statement of `record_fresh_repository`. -/
def afterRecord (s : FreshSource) : RecordPhase → ObservationPhase
  | .ended (.ok _) => .ended (.ok (.observed s.repositoryId))
  | .ended (.error .rateLimited) => .ended (.ok .rateLimited)
  | .ended (.error fault) => .ended (.error fault)
  | phase => .recording s phase

/-- The next statement of `observe_repository`, for the alias it was asked. -/
def step (k : Contracts) (requested : OwnerName) (i : FetchInput) (c : Catalog) :
    ObservationPhase → ObservationPhase × Catalog
  | acquiring => (if i.acquired then .resolving else .ended (.ok .rateLimited), c)
  | resolving =>
    settleFetch (i.fate.run (select (resolveAlias .ownerName requested.text)) c)
      (.ended (.error .catalog)) fun known => known.elim (.fetching none none) .validating
  | validating known =>
    settleFetch (i.fate.run (select (storedValidators known)) c) (.ended (.error .catalog)) fun v =>
      .fetching (some known) v.1
  | fetching known _ => (afterFetch known i.repository, c)
  | identifying body etag =>
    settleFetch (i.fate.run (upsertRepository i.freshId body.providerRepositoryId) c)
      (.ended (.error .catalog)) fun repositoryId => .naming repositoryId body etag
  | naming repositoryId body etag =>
    let observed := body.ownerName.map (·.text)
    settleFetch (i.fate.run (applyAliasObservation i.ids i.now body.providerRepositoryId .ownerName
      (observed.filter (· ≠ requested.text)) (observed.getD requested.text)) c) (.ended (.error .catalog))
      fun _ => .recording ⟨repositoryId, body, etag, none⟩ .validating
  | recording s phase =>
    let next := phase.step k s i c
    (afterRecord s next.1, next.2)
  | refreshing repositoryId =>
    settleFetch (i.fate.run (applyNotModified i.now repositoryId) c) (.ended (.error .catalog))
      fun _ => .evaluating repositoryId
  | evaluating repositoryId =>
    settleFetch (i.fate.run (evaluateMetadataWatches k i.ids i.now repositoryId) c)
      (.ended (.error .catalog)) fun _ => .ended (.ok (.notModified repositoryId))
  | ended result => (.ended result, c)

end ObservationPhase

/-! ### The routes -/

/-- The token of the account, or of the anonymous caller. -/
def accountToken (userId : Uuid) (account : Option (Uuid × List String)) : String :=
  account.elim ("anonymous:" ++ uuidText userId) fun a => uuidText a.1

/-- `ApiFault::from_provider`. -/
def ApiFault.fromProvider : ProviderError → ApiFault
  | .notFound | .unauthorized => .notFound
  | _ => .providerUnavailable

/-- The preview route, up to the preview it makes of the body. -/
inductive PreviewPhase where
  | choosing
  | acquiring (token : String)
  | fetching (token : String)
  | ended (result : Except ApiFault ProviderRepositoryBody)

namespace PreviewPhase

/-- The phase after a reply for the repository. -/
def afterFetch (owner name : String) : Except ProviderError FetchOutcome → PreviewPhase
  | .error e => .ended (.error (.fromProvider e))
  | .ok (.fresh body _ _) =>
    if eqIgnoreAsciiCase body.fullName (owner ++ "/" ++ name) then .ended (.ok body)
    else .ended (.error .notFound)
  | .ok _ => .ended (.error .providerUnavailable)

/-- The next statement of `preview`, for a URL that was split. -/
def step (userId : Uuid) (owner name : String) (env : ActionEnvironment) (i : FetchInput) :
    PreviewPhase → PreviewPhase
  | choosing =>
    match eligibleAccount env with
    | .error fault => .ended (.error fault)
    | .ok account => .acquiring (accountToken userId account)
  | acquiring token => if i.acquired then .fetching token else .ended (.error .rateLimited)
  | fetching _ => afterFetch owner name i.repository
  | ended result => .ended result

end PreviewPhase

/-- The action route between its claim and its completion. -/
inductive ActionStage where
  | refusing
  | choosing
  | acquiring (token : String)
  | fetching (token : String)
  | identifying (token : String) (body : ProviderRepositoryBody) (etag : Option String)
  | naming (token : String) (s : FreshSource)
  | linking (token : String) (s : FreshSource)
  | recording (token : String) (s : FreshSource) (phase : RecordPhase)
  | tracking (metadata : MetadataOutcome)
  | unlocking (metadata : MetadataOutcome)
  | starring (metadata : MetadataOutcome) (token : String) (m : Mutation)
  | ended (result : Except ApiFault RepositoryActionResult)

namespace ActionStage

/-- The first stage of a claimed request. -/
def first (request : RepositoryActionRequest) : ActionStage :=
  if request.mode = .star then .refusing else .choosing

/-- The stage after a reply for the target. -/
def afterFetch (request : RepositoryActionRequest) (token : String) :
    Except ProviderError FetchOutcome → ActionStage
  | .ok (.fresh body etag _) =>
    if request.githubRepositoryNumericId < 2 ^ 63 ∧
        request.githubRepositoryNumericId = body.providerRepositoryId ∧
        eqIgnoreAsciiCase body.fullName request.repositoryFullName = true then
      .identifying token body etag
    else .ended (.ok (targetChangedResult request.mode))
  | _ => .ended (.ok (metadataProviderFailure request.mode))

/-- The stage after the aliases were recorded. -/
def afterLinks (p : ActionContracts) (userId : Uuid) (request : RepositoryActionRequest)
    (token : String) (s : FreshSource) : ActionStage :=
  match repositoryParts request.canonicalUrl with
  | .error fault => .ended (.error fault)
  | .ok _ =>
    if request.mode = .track ∧ p.tenantRef (userRef userId) = false then
      .ended (.error .invalidRequest)
    else .recording token s .validating

/-- The stage after the metadata was recorded. -/
def afterMetadata (request : RepositoryActionRequest) (metadata : MetadataOutcome) : ActionStage :=
  match request.mode with
  | .star => .unlocking metadata
  | .track => .tracking metadata
  | .metadata => .ended (.ok ⟨metadata, .skipped .notApplicable, .skipped .notApplicable⟩)

/-- The stage after a statement of `record_fresh_repository`. -/
def afterRecord (request : RepositoryActionRequest) (token : String) (s : FreshSource) :
    RecordPhase → ActionStage
  | .ended (.ok .unchanged) => afterMetadata request .alreadyApplied
  | .ended (.ok _) => afterMetadata request .succeeded
  | .ended (.error .catalog) => .ended (.ok (metadataPersistenceFailure request.mode))
  | .ended (.error _) => .ended (.ok (metadataProviderFailure request.mode))
  | phase => .recording token s phase

/-- The mutation of a star action, when the credential can be used. -/
def afterUnlock (p : ActionContracts) (env : ActionEnvironment) (userId : Uuid)
    (request : RepositoryActionRequest) (metadata : MetadataOutcome) : ActionStage :=
  match starAccountId p request with
  | .error fault => .ended (.error fault)
  | .ok accountId =>
    if !env.credentialKey || !env.activePat then
      .ended (.ok (starComponentFailed metadata .dependencyUnavailable))
    else
      match splitOnce '/' request.repositoryFullName with
      | none => .ended (.error .invalidRequest)
      | some (owner, name) =>
        .starring metadata (uuidText accountId)
          { context := ⟨accountId, userRef userId, .telegram⟩
            request := .star ⟨request.githubRepositoryNumericId, owner, name⟩ request.idempotencyKey
            phase := .authorize }

/-- What `execute_mutation` answers: an error of the transaction behind a confirmed write says so. -/
def mutationAnswer (before : Phase) : Phase → Option (Except MutationFault MutationStatus)
  | .returned status _ => some (.ok status)
  | .outraced _ => some (.ok .alreadyApplied)
  | .raised _ => some (.error (if before.wrote.isSome then .providerConfirmedPersistence else .other))
  | _ => none

/-- The stage after a statement of the mutation. -/
def afterMutation (p : ActionContracts) (env : ActionEnvironment) (request : RepositoryActionRequest)
    (metadata : MetadataOutcome) (token : String) (m : Mutation) (next : Phase) : ActionStage :=
  match mutationAnswer m.phase next with
  | some answer =>
    .ended (executeStarAction p { env with credentialKey := true, activePat := true, mutation := answer }
      request metadata)
  | none => .starring metadata token { m with phase := next }

/-- The next statement of an action; `env` answers the reads of the accounts and the credentials. -/
def step (k : Contracts) (p : ActionContracts) (userId : Uuid) (request : RepositoryActionRequest)
    (env : ActionEnvironment) (i : FetchInput) (mi : StepInput) (w : World) :
    ActionStage → ActionStage × World
  | refusing =>
    match starRefusal p env request with
    | .error fault => (.ended (.error fault), w)
    | .ok (some reason) => (.ended (.ok (refusedStarResult reason)), w)
    | .ok none => (.choosing, w)
  | choosing =>
    match eligibleAccount env with
    | .error fault => (.ended (.error fault), w)
    | .ok account => (.acquiring (accountToken userId account), w)
  | acquiring token =>
    if i.acquired then
      match repositoryParts request.canonicalUrl with
      | .error fault => (.ended (.error fault), w)
      | .ok _ => (.fetching token, w)
    else (.ended (.ok (metadataProviderFailure request.mode)), w)
  | fetching token => (afterFetch request token i.repository, w)
  | identifying token body etag =>
    let s := settleFetch (i.fate.run (upsertRepository i.freshId request.githubRepositoryNumericId)
      w.catalog) (.ended (.ok (metadataPersistenceFailure request.mode))) fun repositoryId =>
        .naming token ⟨repositoryId, body, etag, if request.mode = .track then some (userRef userId)
          else none⟩
    (s.1, { w with catalog := s.2 })
  | naming token s =>
    let next := settleFetch (i.fate.run (recordAlias i.freshId i.now s.repositoryId .ownerName
      s.body.fullName) w.catalog) (.ended (.ok (metadataPersistenceFailure request.mode))) fun _ =>
        .linking token s
    (next.1, { w with catalog := next.2 })
  | linking token s =>
    let next := settleFetch (i.fate.run (recordAlias i.freshId i.now s.repositoryId .htmlUrl
      request.canonicalUrl) w.catalog) (.ended (.ok (metadataPersistenceFailure request.mode)))
        fun _ => afterLinks p userId request token s
    (next.1, { w with catalog := next.2 })
  | recording token s phase =>
    let next := phase.step k s i w.catalog
    (afterRecord request token s next.1, { w with catalog := next.2 })
  | tracking metadata =>
    let next := settleFetch (i.fate.run (trackRepository i.freshId i.now
      request.githubRepositoryNumericId) w.catalog)
      (.ended (.ok ⟨metadata, .skipped .notApplicable, .failed .policyPublicationFailed⟩))
      fun | .accepted => .ended (.ok ⟨metadata, .skipped .notApplicable, .accepted⟩)
          | .alreadyApplied => .ended (.ok ⟨metadata, .skipped .notApplicable, .alreadyApplied⟩)
    (next.1, { w with catalog := next.2 })
  | unlocking metadata => (afterUnlock p env userId request metadata, w)
  | starring metadata token m =>
    let next := m.step mi w
    (afterMutation p env request metadata token m next.1, next.2)
  | ended result => (.ended result, w)

end ActionStage

end GithubCatalog
