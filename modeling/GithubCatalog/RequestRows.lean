import GithubCatalog.Catalog
import GithubCatalog.ErasureState
import GithubCatalog.AnalysisRuns

/-!
# The rows of `repository_analysis_requests`

Only an evaluation inserts requests.  A dispatch and a terminal fact write the lifecycle columns, an
erasure deletes rows, and nothing else touches them.

* `asked` - a request with its lifecycle columns cleared: what was asked, of whom and when;
* `Operation.commit_requests` - operations other than evaluations ask for nothing new.
-/

namespace GithubCatalog

open Relational Transact

namespace RepositoryAnalysisRequest

/-- What was asked, without what became of it. -/
def asked (r : RepositoryAnalysisRequest) : RepositoryAnalysisRequest :=
  { r with
    status := .queued, outboxMessageId := none, analysisResultRef := none, failureCode := none
    retryable := none, terminalAt := none }

@[simp] theorem asked_dispatchedAs (r : RepositoryAnalysisRequest) (messageId : Uuid) :
    (r.dispatchedAs messageId).asked = r.asked := rfl

@[simp] theorem asked_settle (r : RepositoryAnalysisRequest) (now : Time) (status : TerminalStatus) :
    (status.settle now r).asked = r.asked := by
  cases status with
  | completed _ => rfl
  | failed _ _ => rfl

end RepositoryAnalysisRequest

/-- Every request was there before. -/
def AsksNothing (db db' : Database) : Prop :=
  ∀ r' ∈ db'.repositoryAnalysisRequests, ∃ r ∈ db.repositoryAnalysisRequests, r.asked = r'.asked

theorem asksNothing_of_eq {db db' : Database}
    (h : db'.repositoryAnalysisRequests = db.repositoryAnalysisRequests) : AsksNothing db db' :=
  fun r hr => ⟨r, h ▸ hr, rfl⟩

theorem asksNothing_updateWhere {db db' : Database} {p : RepositoryAnalysisRequest → Bool}
    {f : RepositoryAnalysisRequest → RepositoryAnalysisRequest} (hf : ∀ r, (f r).asked = r.asked)
    (h : db'.repositoryAnalysisRequests = updateWhere p f db.repositoryAnalysisRequests) :
    AsksNothing db db' := by
  intro r' hr'
  rw [h] at hr'
  obtain ⟨r, hr, rfl⟩ := mem_updateWhere.mp hr'
  refine ⟨r, hr, ?_⟩
  split
  · exact (hf r).symm
  · rfl

theorem asksNothing_dispatch {k : Contracts} {messageId : Uuid} {now : Time} (c : Catalog) :
    AsksNothing c.tables ((dispatchDueRepositoryAnalysis k messageId now).commit c).tables := by
  rcases Tx.commit_cases (dispatchDueRepositoryAnalysis k messageId now) c with ⟨out, hok⟩ | hsame
  · rw [← dispatchUnlocked_none] at hok ⊢
    generalize (dispatchUnlocked k (fun _ => false) messageId now).commit c = c' at hok ⊢
    rcases dispatchUnlocked_spec hok with rfl | ⟨r, -, _, _, -, -, -, -, hrequests⟩
    · exact asksNothing_of_eq rfl
    · exact asksNothing_updateWhere (fun r => r.asked_dispatchedAs messageId) hrequests
  · rw [hsame]
    exact asksNothing_of_eq rfl

theorem asksNothing_consume {k : Contracts} {messageId : Uuid} {now : Time} {fact : TerminalFact}
    {status : TerminalStatus} (c : Catalog) :
    AsksNothing c.tables ((consumeTerminalFact k now messageId fact status).commit c).tables := by
  rcases Tx.commit_cases (consumeTerminalFact k now messageId fact status) c with ⟨out, hok⟩ | hsame
  · generalize (consumeTerminalFact k now messageId fact status).commit c = c' at hok ⊢
    rcases consumeTerminalFact_spec hok with ⟨rfl, -⟩ | hdelivered
    · exact asksNothing_of_eq rfl
    · exact asksNothing_updateWhere (fun r => r.asked_settle now status) hdelivered.requests
  · rw [hsame]
    exact asksNothing_of_eq rfl

theorem asksNothing_erase {now : Time} {owner : String} {operation : AccountErasureOperation}
    (c : Catalog) : AsksNothing c.tables ((eraseAccountInTx now owner operation).commit c).tables := by
  rcases Tx.commit_cases (eraseAccountInTx now owner operation) c with ⟨⟨⟩, hok⟩ | hsame
  · generalize (eraseAccountInTx now owner operation).commit c = c' at hok ⊢
    obtain ⟨c₁, h₁, hagree⟩ := eraseAccountInTx_eq_ok hok
    have hrequests : c'.tables.repositoryAnalysisRequests =
        deleteWhere (fun r => decide (r.ownerRef = owner)) c.tables.repositoryAnalysisRequests := by
      refine (hagree .repositoryAnalysisRequests (by decide)).trans ?_
      rw [eraseOwnerState_eq h₁]
      rfl
    intro r hr
    rw [hrequests] at hr
    exact ⟨r, (mem_deleteWhere.mp hr).1, rfl⟩
  · rw [hsame]
    exact asksNothing_of_eq rfl

namespace Operation

/-- Whether an operation evaluates watches. -/
def evaluates : Operation → Bool
  | .evaluateWatches .. => true
  | _ => false

/-- **Only evaluations ask.** -/
theorem commit_requests (k : Contracts) (c : Catalog) (op : Operation) (h : op.evaluates = false) :
    AsksNothing c.tables (op.commit k c).tables := by
  cases op with
  | evaluateWatches => cases h
  | dispatchAnalysis => exact asksNothing_dispatch c
  | consumeTerminalFact => exact asksNothing_consume c
  | eraseAccount => exact asksNothing_erase c
  | _ => exact asksNothing_of_eq (rows_commit k c _ .repositoryAnalysisRequests rfl)

end Operation

end GithubCatalog
