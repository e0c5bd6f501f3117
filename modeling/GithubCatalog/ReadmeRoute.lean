import GithubCatalog.ErasurePermanence
import GithubCatalog.ReadmeBytes
import GithubCatalog.RepositoryActions

/-!
# The README route (`readme_blobs.rs`)

A holder of the reader secret reads the stored bytes of a README by their digest.

* `readmeBlob` - the answer to a request;
* `BlobsStored` - every stored README is under the digest of its bytes, and was stored;
* `readmeBlob_served` - what a served answer says of the history, and how long it stands.
-/

namespace GithubCatalog

open Relational Transact Runs

/-- What the route reads of a request: the digest of its path, and its authorization header if that is
visible text. -/
structure ReadmeRequest where
  digest : String
  authorization : Option String

inductive ReadmeResponse where
  | unauthorized | notFound | unavailable
  | served (bytes : List UInt8) (contentType contentDigest : String)
deriving DecidableEq

/-- The token of a bearer header; any other header presents the empty one. -/
def ReadmeRequest.presented (request : ReadmeRequest) : String :=
  (request.authorization.bind (stripPrefix "Bearer ")).getD ""

/-- `bearer_matches`. -/
def bearerMatches (k : Contracts) (secret : String) (request : ReadmeRequest) : Bool :=
  decide (k.sha256Hex request.presented.toUTF8.data.toList =
      k.sha256Hex secret.toUTF8.data.toList) &&
    decide (secret ≠ "")

/-- `is_sha256_hex`. -/
def isSha256Hex (value : String) : Bool :=
  decide (value.utf8ByteSize = 64) && value.toList.all isHexChar

/-- `readme_blob`; `answered` is whether the database answers the read. -/
def readmeBlob (k : Contracts) (secret : String) (answered : Bool) (request : ReadmeRequest)
    (db : Database) : ReadmeResponse :=
  if !bearerMatches k secret request then .unauthorized
  else if !isSha256Hex request.digest then .notFound
  else if !answered then .unavailable
  else
    match db.repositoryReadmeBlobs.find? fun b => decide (b.contentDigest = request.digest) with
    | some b => .served b.bytes "text/markdown" request.digest
    | none => .notFound

/-- The README bytes an operation stores. -/
def Operation.storedReadmes : Operation → List (List UInt8)
  | .storeReadme _ bytes => [bytes]
  | _ => []

/-- Every stored README is under the digest of its bytes, and its bytes are as `P` says. -/
def BlobsStored (k : Contracts) (P : List UInt8 → Prop) (db : Database) : Prop :=
  ∀ b ∈ db.repositoryReadmeBlobs, b.contentDigest = k.sha256Hex b.bytes ∧ P b.bytes

section route

variable {k : Contracts} {c : Catalog} {P : List UInt8 → Prop}

theorem readmeBlob_eq_served {secret : String} {answered : Bool} {request : ReadmeRequest}
    {bytes : List UInt8} {contentType contentDigest : String} :
    readmeBlob k secret answered request c.tables = .served bytes contentType contentDigest ↔
      (bearerMatches k secret request = true ∧ isSha256Hex request.digest = true ∧ answered = true) ∧
        contentType = "text/markdown" ∧ contentDigest = request.digest ∧
        ∃ b ∈ c.tables.repositoryReadmeBlobs, b.contentDigest = request.digest ∧ b.bytes = bytes := by
  constructor
  · intro h
    unfold readmeBlob at h
    split at h
    · cases h
    · next hbearer =>
      split at h
      · cases h
      · next hhex =>
        split at h
        · cases h
        · next hanswered =>
          split at h
          · next b hfound =>
            cases h
            exact ⟨⟨by simpa using hbearer, by simpa using hhex, by simpa using hanswered⟩, rfl, rfl,
              b, List.mem_of_find?_eq_some hfound, by simpa using List.find?_some hfound, rfl⟩
          · cases h
  · rintro ⟨⟨hbearer, hhex, hanswered⟩, rfl, rfl, b, hb, hdigest, rfl⟩
    have hfound : (c.tables.repositoryReadmeBlobs.find? fun b =>
        decide (b.contentDigest = request.digest)) = some b := by
      rw [← hdigest]
      exact c.valid.keys.readmeBlobs.find?_eq hb
    simp only [readmeBlob, hbearer, hhex, hanswered, hfound, Bool.not_true, Bool.false_eq_true,
      if_false]

theorem Operation.commit_blobsStored (op : Operation)
    (hstored : ∀ bytes ∈ op.storedReadmes, P bytes) :
    Tx.Keeps (BlobsStored k P) c.tables (op.commit k c).tables := by
  have hother : op.leaves .repositoryReadmeBlobs = true →
      Tx.Keeps (BlobsStored k P) c.tables (op.commit k c).tables := by
    intro hleaves hold
    have hsame : (op.commit k c).tables.repositoryReadmeBlobs = c.tables.repositoryReadmeBlobs :=
      op.rows_commit k c .repositoryReadmeBlobs hleaves
    rw [BlobsStored, hsame]
    exact hold
  cases op with
  | storeReadme repositoryId bytes =>
    have hkeeps : Tx.Relates (Tx.Keeps (BlobsStored k P)) (GithubCatalog.storeReadme k bytes) := by
      refine Tx.Relates.bind (relates_write fun db _ hold => ?_) fun _ => Tx.Relates.pure _
      exact forall_insertUnless hold ⟨rfl, hstored bytes (List.mem_singleton.mpr rfl)⟩
    exact hkeeps.commit c
  | eraseAccount now owner operation =>
    refine Tx.relates_commit fun _ c' h hold b hb => ?_
    have hsame : c'.tables.repositoryReadmeBlobs =
        (erased now owner c.tables).repositoryReadmeBlobs :=
      eraseAccountInTx_erased h .repositoryReadmeBlobs (by decide)
    rw [hsame] at hb
    exact hold b (mem_deleteWhere.mp hb).1
  | _ => exact hother rfl

theorem blobsStored_run {history : List Operation}
    (hstored : ∀ op ∈ history, ∀ bytes ∈ op.storedReadmes, P bytes) (h : BlobsStored k P c.tables) :
    BlobsStored k P (runFrom (step k) c history).tables := by
  induction history generalizing c with
  | nil => exact h
  | cons op rest ih =>
    obtain ⟨hop, hrest⟩ := List.forall_mem_cons.mp hstored
    refine ih hrest ?_
    unfold step
    split
    · exact op.commit_blobsStored hop h
    · exact h

/-- Only an erasure takes stored bytes away. -/
theorem Operation.commit_blobs (op : Operation) (herase : op.erases = false) :
    c.tables.repositoryReadmeBlobs ⊆ (op.commit k c).tables.repositoryReadmeBlobs := by
  have hother : op.leaves .repositoryReadmeBlobs = true →
      c.tables.repositoryReadmeBlobs ⊆ (op.commit k c).tables.repositoryReadmeBlobs := by
    intro hleaves
    have hsame : (op.commit k c).tables.repositoryReadmeBlobs = c.tables.repositoryReadmeBlobs :=
      op.rows_commit k c .repositoryReadmeBlobs hleaves
    rw [hsame]
    exact List.Subset.refl _
  cases op with
  | storeReadme repositoryId bytes =>
    rcases Tx.commit_cases (GithubCatalog.storeReadme k bytes) c with ⟨digest, h⟩ | hsame
    · exact (storeReadme_spec h).2.1
    · rw [Operation.commit, hsame]
      exact List.Subset.refl _
  | eraseAccount => cases herase
  | _ => exact hother rfl

theorem blobs_run {history : List Operation} (herase : ∀ op ∈ history, op.erases = false) :
    c.tables.repositoryReadmeBlobs ⊆ (runFrom (step k) c history).tables.repositoryReadmeBlobs := by
  induction history generalizing c with
  | nil => exact List.Subset.refl _
  | cons op rest ih =>
    obtain ⟨hop, hrest⟩ := List.forall_mem_cons.mp herase
    refine List.Subset.trans ?_ (ih hrest)
    unfold step
    split
    · exact op.commit_blobs hop
    · exact List.Subset.refl _

end route

/-- **What the README route serves.**  After any history, a served body was stored by a recording of that
history, has the digest that was asked for, and goes to a caller who presented a token of the digest of
the secret; and the same request is answered with the same body until an owner is erased. -/
theorem readmeBlob_served (k : Contracts) (history : List Operation) (secret : String)
    (request : ReadmeRequest) (bytes : List UInt8) (contentType contentDigest : String)
    (hserved : readmeBlob k secret true request (runFrom (step k) emptyCatalog history).tables =
      .served bytes contentType contentDigest) :
    (secret ≠ "" ∧ k.sha256Hex request.presented.toUTF8.data.toList =
        k.sha256Hex secret.toUTF8.data.toList) ∧
      (k.sha256Hex bytes = request.digest ∧ contentDigest = request.digest) ∧
      (∃ repositoryId, Operation.storeReadme repositoryId bytes ∈ history) ∧
      ∀ after : List Operation, (∀ op ∈ after, op.erases = false) →
        readmeBlob k secret true request (runFrom (step k) emptyCatalog (history ++ after)).tables =
          .served bytes contentType contentDigest := by
  obtain ⟨hgranted, htype, hheader, b, hb, hdigest, rfl⟩ := readmeBlob_eq_served.mp hserved
  have hstored : BlobsStored k (fun bytes => ∃ repositoryId,
      Operation.storeReadme repositoryId bytes ∈ history)
      (runFrom (step k) emptyCatalog history).tables := by
    refine blobsStored_run (fun op hop bytes hbytes => ?_) (List.forall_mem_nil _)
    cases op with
    | storeReadme repositoryId stored => exact ⟨repositoryId, List.mem_singleton.mp hbytes ▸ hop⟩
    | _ => cases hbytes
  obtain ⟨hnamed, hrecorded⟩ := hstored b hb
  have hbearer := hgranted.1
  simp only [bearerMatches, Bool.and_eq_true, decide_eq_true_eq] at hbearer
  refine ⟨⟨hbearer.2, hbearer.1⟩, ⟨hnamed.symm.trans hdigest, hheader⟩, hrecorded,
    fun after herase => ?_⟩
  rw [runFrom_append]
  exact readmeBlob_eq_served.mpr ⟨hgranted, htype, hheader, b, blobs_run herase hb, hdigest, rfl⟩

/-- A recording of a README, and another of the same repository. -/
def storedReadmes : List Operation := [.upsertRepository 5 7, .storeReadme 5 [35, 32, 111, 110, 101]]

theorem readmeBlob_served_stored :
    readmeBlob sampleContracts "reader" true
        ⟨sampleContracts.sha256Hex [35, 32, 111, 110, 101], some "Bearer reader"⟩
        (runFrom (step sampleContracts) emptyCatalog
          (storedReadmes ++ [.storeReadme 5 [35, 32, 116, 119, 111]])).tables =
      .served [35, 32, 111, 110, 101] "text/markdown"
        (sampleContracts.sha256Hex [35, 32, 111, 110, 101]) := by
  have hserved : readmeBlob sampleContracts "reader" true
      ⟨sampleContracts.sha256Hex [35, 32, 111, 110, 101], some "Bearer reader"⟩
      (runFrom (step sampleContracts) emptyCatalog storedReadmes).tables =
        .served [35, 32, 111, 110, 101] "text/markdown"
          (sampleContracts.sha256Hex [35, 32, 111, 110, 101]) := by
    decide +kernel
  obtain ⟨-, -, -, hstands⟩ := readmeBlob_served sampleContracts storedReadmes "reader" _ _ _ _ hserved
  exact hstands _ (List.forall_mem_singleton.mpr rfl)

end GithubCatalog
