import GithubCatalog.ErasurePermanence
import GithubCatalog.Lib.Join

/-!
# Stored credentials (`credentials.rs`)

A provider token is stored encrypted under a configured key, bound to the id of its account, and loaded
back for the calls that act for the account.  AES-256-GCM itself is outside the repository; `Aead` is
what the catalog calls of it.

* `CredentialKey.fromHex` - the configured key material;
* `registerToken`, `loadActiveCredential` - storing a token and loading it;
* `Custody` - an account, while it is there, is connected under one stored credential;
* `loadActive_registered` - what was registered is what is loaded, after any history.
-/

namespace GithubCatalog

open Relational Transact Runs

/-- AES-256-GCM, of a key, a nonce, the associated data and the message. -/
structure Aead where
  encrypt : List UInt8 → List UInt8 → List UInt8 → List UInt8 → Option (List UInt8)
  decrypt : List UInt8 → List UInt8 → List UInt8 → List UInt8 → Option (List UInt8)

/-- What the catalog relies on: a sealed message opens again. -/
structure Aead.Documented (aead : Aead) : Prop where
  opens : ∀ key nonce data message sealed, aead.encrypt key nonce data message = some sealed →
    aead.decrypt key nonce data sealed = some message

inductive CredentialError where
  | invalidKey | accountNotAwaitingReauthorization | encryption | unavailable | decryption | persistence
deriving DecidableEq

/-! ### Key material -/

/-- `CredentialKey`: 32 bytes, and the label of the key. -/
structure CredentialKey where
  bytes : List UInt8
  version : String
  length_bytes : bytes.length = 32

/-- `hex_nibble`. -/
def hexNibble (byte : UInt8) : Option UInt8 :=
  if 48 ≤ byte ∧ byte ≤ 57 then some (byte - 48)
  else if 97 ≤ byte ∧ byte ≤ 102 then some (byte - 97 + 10)
  else if 65 ≤ byte ∧ byte ≤ 70 then some (byte - 65 + 10)
  else none

/-- The bytes that pairs of nibbles stand for; an odd digit at the end is left out. -/
def hexPairs : List UInt8 → Option (List UInt8)
  | high :: low :: rest =>
    match hexNibble high, hexNibble low, hexPairs rest with
    | some high, some low, some bytes => some ((high <<< 4 ||| low) :: bytes)
    | _, _, _ => none
  | _ => some []

theorem length_hexPairs : ∀ {text bytes : List UInt8}, hexPairs text = some bytes →
    bytes.length = text.length / 2
  | [], _, h => by cases h; rfl
  | [_], _, h => by cases h; simp
  | high :: low :: rest, bytes, h => by
    unfold hexPairs at h
    split at h
    · next hrest =>
      rw [← Option.some.inj h, List.length_cons, length_hexPairs hrest, List.length_cons,
        List.length_cons]
      omega
    · cases h

/-- A version label: 1 to 64 letters, digits, dots, underscores and hyphens. -/
def validKeyVersion (version : String) : Bool :=
  decide (version.utf8ByteSize ≠ 0) && decide (version.utf8ByteSize ≤ 64) &&
    version.toList.all fun c => c.isAlphanum || c == '.' || c == '_' || c == '-'

/-- `CredentialKey::from_hex`. -/
def CredentialKey.fromHex (value version : String) : Except CredentialError CredentialKey :=
  if hlength : value.toUTF8.data.toList.length = 64 then
    if validKeyVersion version then
      match hpairs : hexPairs value.toUTF8.data.toList with
      | some bytes => .ok ⟨bytes, version, by rw [length_hexPairs hpairs, hlength]⟩
      | none => .error .invalidKey
    else .error .invalidKey
  else .error .invalidKey

/-! ### Registration -/

/-- `CredentialProvenance`. -/
inductive CredentialProvenance where
  | pat
  | oauth (clientId : String)
deriving DecidableEq

def CredentialProvenance.kind : CredentialProvenance → CredentialKind
  | .pat => .pat
  | .oauth _ => .oauth

def CredentialProvenance.oauthClientId : CredentialProvenance → Option String
  | .pat => none
  | .oauth clientId => some clientId

/-- `Uuid::as_bytes`. -/
def uuidBytes (u : Uuid) : List UInt8 :=
  (List.range 16).map fun i => UInt8.ofNat (u.toNat / 256 ^ (15 - i))

/-- The bytes of a token. -/
def tokenBytes (token : String) : List UInt8 := token.toUTF8.data.toList

/-- `String::from_utf8`. -/
def tokenOf (bytes : List UInt8) : Option String := String.fromUTF8? ⟨bytes.toArray⟩

theorem tokenOf_tokenBytes (token : String) : tokenOf (tokenBytes token) = some token := by
  have hbytes : (⟨(tokenBytes token).toArray⟩ : ByteArray) = token.toUTF8 := by simp [tokenBytes]
  rw [tokenOf, hbytes, String.fromUTF8?, String.toUTF8_eq_toByteArray, dif_pos token.isValidUTF8]
  rfl

/-- What `register_pat` and `register_oauth` are called with, and the nonce drawn for it. -/
structure Registration where
  accountId : Uuid
  token : String
  key : CredentialKey
  verified : VerifiedGithubAccount
  provenance : CredentialProvenance
  nonce : List UInt8
  length_nonce : nonce.length = 12

/-- The credential row of an encrypted token. -/
def Registration.row (r : Registration) (sealed : List UInt8) (now : Time) : GithubAccountCredential :=
  ⟨r.accountId, r.key.version, r.provenance.kind, r.provenance.oauthClientId, sealed, r.nonce, now⟩

/-- `register_credential`. -/
def registerToken (aead : Aead) (now : Time) (r : Registration) (c : Catalog) :
    Except CredentialError Unit × Catalog :=
  if r.verified.providerUserId ≤ 0 ∨ r.verified.login = "" then
    (.error .accountNotAwaitingReauthorization, c)
  else
    match aead.encrypt r.key.bytes r.nonce (uuidBytes r.accountId) (tokenBytes r.token) with
    | none => (.error .encryption, c)
    | some sealed =>
      match registerCredential now r.accountId r.verified (r.row sealed now) c with
      | .ok (_, c') => (.ok (), c')
      | .error .accountNotAwaitingReauthorization => (.error .accountNotAwaitingReauthorization, c)
      | .error _ => (.error .persistence, c)

/-! ### Loading -/

/-- The stored credential of a connected account, of one kind and application. -/
def activeCredential (accountId : Uuid) (provenance : CredentialProvenance) (db : Database) :
    Option GithubAccountCredential :=
  ((innerJoin (fun credential account => decide (account.accountId = credential.accountId))
      db.githubAccountCredentials db.githubAccounts).find? fun p =>
    decide (p.1.accountId = accountId) && decide (p.1.credentialKind = provenance.kind) &&
      decide (p.1.oauthClientId = provenance.oauthClientId) &&
      decide (p.2.status = .connected)).map Prod.fst

/-- `load_active_credential`. -/
def loadActiveCredential (aead : Aead) (key : CredentialKey) (accountId : Uuid)
    (provenance : CredentialProvenance) (db : Database) : Except CredentialError String :=
  match activeCredential accountId provenance db with
  | none => .error .unavailable
  | some credential =>
    if credential.nonce.length ≠ 12 then .error .decryption
    else
      match aead.decrypt key.bytes credential.nonce (uuidBytes accountId) credential.encryptedToken with
      | none => .error .decryption
      | some bytes => (tokenOf bytes).elim (.error .decryption) .ok

/-! ### Custody -/

/-- While the account of a credential is there, it is connected under that credential. -/
def Custody (credential : GithubAccountCredential) (db : Database) : Prop :=
  ∀ a ∈ db.githubAccounts, a.accountId = credential.accountId →
    a.status = .connected ∧ credential ∈ db.githubAccountCredentials

section custody

variable {k : Contracts} {credential : GithubAccountCredential} {c c' : Catalog}

theorem custody_of_eq (db : Database) {db' : Database}
    (haccounts : db'.githubAccounts = db.githubAccounts)
    (hcredentials : db'.githubAccountCredentials = db.githubAccountCredentials)
    (h : Custody credential db) : Custody credential db' := by
  rw [Custody, haccounts, hcredentials]
  exact h

/-- Another account's registration leaves the account and its credential; the account itself is not
awaiting one. -/
theorem custody_registerCredential {now : Time} {accountId : Uuid} {verified : VerifiedGithubAccount}
    {row : GithubAccountCredential} {u : Unit} (hcustody : Custody credential c.tables)
    (h : registerCredential now accountId verified row c = .ok (u, c')) :
    Custody credential c'.tables := by
  unfold registerCredential at h
  split at h
  · exact (abort_eq_ok.mp h).elim
  · simp only [Tx.bind_eq_ok, require_eq_ok, write_eq_ok] at h
    obtain ⟨-, _, ⟨hawaiting, rfl⟩, -, c₁, h₁, h₂⟩ := h
    have hother : accountId ≠ credential.accountId := by
      rintro rfl
      obtain ⟨a, ha, htest⟩ := List.any_eq_true.mp hawaiting
      simp only [Bool.and_eq_true, decide_eq_true_eq] at htest
      have hconnected := (hcustody a ha htest.1).1
      rw [htest.2] at hconnected
      cases hconnected
    rw [h₂, h₁]
    intro a ha hid
    obtain ⟨b, hb, heq⟩ := mem_updateWhere.mp ha
    split at heq
    · next htest =>
      simp only [Bool.and_eq_true, decide_eq_true_eq] at htest
      rw [← heq] at hid
      exact absurd (htest.1.symm.trans hid) hother
    · rw [← heq] at hid ⊢
      obtain ⟨hconnected, hmem⟩ := hcustody b hb hid
      refine ⟨hconnected, ?_⟩
      -- The upsert is of the other account's row.
      show credential ∈ upsertWhere _ _ _ c.tables.githubAccountCredentials
      unfold upsertWhere
      split
      · exact mem_updateWhere.mpr ⟨credential, hmem,
          if_neg (by simpa using hother.symm)⟩
      · exact List.mem_append_left _ hmem

/-- An erasure takes the account with its credential, or leaves both. -/
theorem custody_eraseAccount {now : Time} {owner : String} {operation : AccountErasureOperation}
    (hcustody : Custody credential c.tables)
    (h : eraseAccountInTx now owner operation c = .ok ((), c')) : Custody credential c'.tables := by
  have hrecord := eraseAccountInTx_erased h
  refine custody_of_eq (erased now owner c.tables) (hrecord .githubAccounts (by decide))
    (hrecord .githubAccountCredentials (by decide)) ?_
  intro a ha hid
  obtain ⟨ha, hother⟩ := mem_deleteWhere.mp ha
  obtain ⟨hconnected, hmem⟩ := hcustody a ha hid
  refine ⟨hconnected, mem_deleteWhere.mpr ⟨hmem, ?_⟩⟩
  rw [ownsAccount, List.any_eq_false]
  intro b hb hown
  simp only [Bool.and_eq_true, decide_eq_true_eq] at hown
  have hsame : b = a := c.valid.keys.accounts.eq_of_mem hb ha (hown.2.trans hid.symm)
  rw [← hsame, hown.1] at hother
  simp at hother

theorem Operation.commit_custody (op : Operation)
    (hdrawn : ∀ p ∈ op.drawnAccounts, p.1 ≠ credential.accountId)
    (hcustody : Custody credential c.tables) : Custody credential (op.commit k c).tables := by
  have hframe : (op.leaves .githubAccounts && op.leaves .githubAccountCredentials) = true →
      Custody credential (op.commit k c).tables := by
    intro hleaves
    obtain ⟨haccounts, hcredentials⟩ := Bool.and_eq_true_iff.mp hleaves
    exact custody_of_eq c.tables (op.rows_commit k c .githubAccounts haccounts)
      (op.rows_commit k c .githubAccountCredentials hcredentials) hcustody
  cases op with
  | importLegacy accountIds ids now request importRunId =>
    refine Tx.relates_commit (R := Tx.Keeps (Custody credential)) (fun _ c' h hold a ha hid => ?_)
      hcustody
    have hsame : c'.tables.githubAccountCredentials = c.tables.githubAccountCredentials :=
      (touches_importLegacyTransaction _ _ _ _ _).rows_eq h (t := .githubAccountCredentials) (by decide)
    rw [hsame]
    rcases importLegacyTransaction_accounts h a ha with hmem | ⟨p, hp, hnew, -⟩
    · exact hold a hmem hid
    · exact absurd (hnew.symm.trans hid) (hdrawn _ (List.mem_map_of_mem hp))
  | registerCredential =>
    exact Tx.relates_commit (R := Tx.Keeps (Custody credential))
      (fun _ c' h hold => custody_registerCredential hold h) hcustody
  | eraseAccount =>
    exact Tx.relates_commit (R := Tx.Keeps (Custody credential))
      (fun _ c' h hold => custody_eraseAccount hold h) hcustody
  | _ => exact hframe rfl

theorem custody_step (op : Operation) (hdrawn : ∀ p ∈ op.drawnAccounts, p.1 ≠ credential.accountId)
    (hcustody : Custody credential c.tables) : Custody credential (step k c op).tables := by
  unfold step
  split
  · exact op.commit_custody hdrawn hcustody
  · exact hcustody

/-- A successful registration is the account's connection under the sealed token. -/
theorem registerToken_eq_ok {aead : Aead} {now : Time} {r : Registration}
    (h : (registerToken aead now r c).1 = .ok ()) :
    ∃ sealed, aead.encrypt r.key.bytes r.nonce (uuidBytes r.accountId) (tokenBytes r.token) =
        some sealed ∧
      registerCredential now r.accountId r.verified (r.row sealed now) c =
        .ok ((), (registerToken aead now r c).2) := by
  unfold registerToken at h ⊢
  split at h
  · cases h
  · split at h
    · cases h
    · next hguard _ sealed hsealed =>
      refine ⟨sealed, hsealed, ?_⟩
      split at h
      · next hregistered =>
        rw [if_neg hguard]
        simp only [hregistered]
      · cases h
      · cases h

theorem custody_registered {now : Time} {r : Registration} {sealed : List UInt8}
    (h : registerCredential now r.accountId r.verified (r.row sealed now) c = .ok ((), c')) :
    Custody (r.row sealed now) c'.tables := by
  unfold registerCredential at h
  split at h
  · exact (abort_eq_ok.mp h).elim
  · simp only [Tx.bind_eq_ok, require_eq_ok, write_eq_ok] at h
    obtain ⟨-, _, ⟨hawaiting, rfl⟩, -, c₁, h₁, h₂⟩ := h
    obtain ⟨awaiting, hmem, htest⟩ := List.any_eq_true.mp hawaiting
    simp only [Bool.and_eq_true, decide_eq_true_eq] at htest
    rw [h₂, h₁]
    intro a ha hid
    constructor
    · obtain ⟨b, hb, heq⟩ := mem_updateWhere.mp ha
      have hb' : b = awaiting := by
        refine c.valid.keys.accounts.eq_of_mem hb hmem (htest.1.symm ▸ ?_)
        rw [← heq] at hid
        split at hid <;> exact hid
      rw [← heq, if_pos (by simp [hb', htest])]
    · show _ ∈ upsertWhere _ _ _ c.tables.githubAccountCredentials
      unfold upsertWhere
      split
      · next hany =>
        obtain ⟨old, hold, holdId⟩ := List.any_eq_true.mp hany
        exact mem_updateWhere.mpr ⟨old, hold, if_pos holdId⟩
      · exact List.mem_append_right _ (List.mem_singleton.mpr rfl)

theorem custody_run (history : List Operation)
    (hdrawn : ∀ op ∈ history, credential.accountId ∉ op.drawnAccounts.map Prod.fst)
    (hcustody : Custody credential c.tables) :
    Custody credential (runFrom (step k) c history).tables := by
  induction history generalizing c with
  | nil => exact hcustody
  | cons op rest ih =>
    obtain ⟨hop, hrest⟩ := List.forall_mem_cons.mp hdrawn
    refine ih hrest (custody_step op (fun p hp heq => hop ?_) hcustody)
    exact List.mem_map.mpr ⟨p, hp, heq⟩

end custody

/-! ### What is loaded -/

/-- Whether an account is there. -/
def hasAccount (accountId : Uuid) (db : Database) : Bool :=
  db.githubAccounts.any fun a => decide (a.accountId = accountId)

theorem CredentialProvenance.ext_iff {p q : CredentialProvenance} :
    p = q ↔ p.kind = q.kind ∧ p.oauthClientId = q.oauthClientId := by
  cases p <;> cases q <;> simp [CredentialProvenance.kind, CredentialProvenance.oauthClientId]

section loading

variable {c : Catalog} {accountId : Uuid} {provenance : CredentialProvenance}

/-- What a load selects is a credential of the account, which is there and connected. -/
theorem activeCredential_eq_some {db : Database} {found : GithubAccountCredential}
    (h : activeCredential accountId provenance db = some found) :
    found ∈ db.githubAccountCredentials ∧ found.accountId = accountId ∧
      found.credentialKind = provenance.kind ∧ found.oauthClientId = provenance.oauthClientId ∧
      ∃ a ∈ db.githubAccounts, a.accountId = accountId := by
  obtain ⟨⟨found, a⟩, hfind, rfl⟩ := Option.map_eq_some_iff.mp h
  obtain ⟨hfound, ha, hjoined⟩ := mem_innerJoin.mp (List.mem_of_find?_eq_some hfind)
  have htest := List.find?_some hfind
  simp only [Bool.and_eq_true, decide_eq_true_eq] at htest hjoined
  obtain ⟨⟨⟨hid, hkind⟩, hclient⟩, -⟩ := htest
  exact ⟨hfound, hid, hkind, hclient, a, ha, hjoined.trans hid⟩

/-- Under custody, a load selects the credential for its own kind and application. -/
theorem activeCredential_custody {credential : GithubAccountCredential}
    (hcustody : Custody credential c.tables) (hthere : hasAccount credential.accountId c.tables = true)
    (hkind : credential.credentialKind = provenance.kind)
    (hclient : credential.oauthClientId = provenance.oauthClientId) :
    activeCredential credential.accountId provenance c.tables = some credential := by
  obtain ⟨a, ha, hid⟩ := List.any_eq_true.mp hthere
  obtain ⟨hconnected, hmem⟩ := hcustody a ha (of_decide_eq_true hid)
  cases hfound : activeCredential credential.accountId provenance c.tables with
  | none =>
    have hmissed := List.find?_eq_none.mp (Option.map_eq_none_iff.mp hfound) (credential, a)
      (mem_innerJoin.mpr ⟨hmem, ha, hid⟩)
    simp [hkind, hclient, hconnected] at hmissed
  | some found =>
    obtain ⟨hin, hsame, -⟩ := activeCredential_eq_some hfound
    rw [c.valid.keys.credentials.eq_of_mem hin hmem hsame]

end loading

/-- **A registered token is what is loaded.**  After a successful registration, and whatever operations
follow as long as none draws the account's id anew, a load under the same key returns the registered
token while the account is there, for the kind and application it was registered under, and finds nothing
otherwise. -/
theorem loadActive_registered (k : Contracts) (aead : Aead) (haead : aead.Documented) (c : Catalog)
    (now : Time) (r : Registration) (after : List Operation)
    (hdone : (registerToken aead now r c).1 = .ok ())
    (hdrawn : ∀ op ∈ after, r.accountId ∉ op.drawnAccounts.map Prod.fst)
    (provenance : CredentialProvenance) :
    loadActiveCredential aead r.key r.accountId provenance
        (runFrom (step k) (registerToken aead now r c).2 after).tables =
      if hasAccount r.accountId (runFrom (step k) (registerToken aead now r c).2 after).tables = true ∧
          provenance = r.provenance then .ok r.token
      else .error .unavailable := by
  obtain ⟨sealed, hsealed, hregistered⟩ := registerToken_eq_ok hdone
  generalize hc' : runFrom (step k) (registerToken aead now r c).2 after = c'
  have hcustody : Custody (r.row sealed now) c'.tables := by
    rw [← hc']
    exact custody_run after hdrawn (custody_registered hregistered)
  split
  · next h =>
    obtain ⟨hthere, rfl⟩ := h
    have hfound : activeCredential r.accountId r.provenance c'.tables = some (r.row sealed now) :=
      activeCredential_custody hcustody hthere rfl rfl
    have hopened : aead.decrypt r.key.bytes r.nonce (uuidBytes r.accountId) sealed =
        some (tokenBytes r.token) := haead.opens _ _ _ _ _ hsealed
    simp only [loadActiveCredential, hfound, Registration.row, hopened, tokenOf_tokenBytes,
      r.length_nonce, ne_eq, not_true_eq_false, if_false, Option.elim_some]
  · next h =>
    cases hfound : activeCredential r.accountId provenance c'.tables with
    | none => simp only [loadActiveCredential, hfound]
    | some found =>
      obtain ⟨hin, hsame, hkind, hclient, a, ha, hid⟩ := activeCredential_eq_some hfound
      obtain ⟨-, hmem⟩ := hcustody a ha hid
      have hrow : found = r.row sealed now := c'.valid.keys.credentials.eq_of_mem hin hmem hsame
      refine absurd ⟨List.any_eq_true.mpr ⟨a, ha, decide_eq_true hid⟩, ?_⟩ h
      rw [hrow] at hkind hclient
      exact CredentialProvenance.ext_iff.mpr ⟨hkind.symm, hclient.symm⟩

/-! ### A registration and what followed -/

/-- A cipher whose sealed messages say what they were sealed with. -/
def boxAead : Aead where
  encrypt key nonce data message := some (key ++ nonce ++ data ++ message)
  decrypt key nonce data sealed :=
    if (key ++ nonce ++ data).isPrefixOf sealed then
      some (sealed.drop (key ++ nonce ++ data).length)
    else none

theorem boxAead_documented : boxAead.Documented where
  opens := by
    intro key nonce data message sealed h
    have hopened : (key ++ nonce ++ data).isPrefixOf (key ++ nonce ++ data ++ message) = true :=
      List.isPrefixOf_iff_prefix.mpr (List.prefix_append _ _)
    rw [← Option.some.inj h]
    simp only [boxAead, hopened, if_true, List.drop_left]

/-- A replacement token for the first imported account. -/
def replacementPat : Registration :=
  ⟨1, "replacement", ⟨List.replicate 32 7, "v1", rfl⟩, ⟨7, "login", ["repo"]⟩, .pat,
    List.replicate 12 0, rfl⟩

/-- The other account connects, a second registration of the first is refused, and the other owner is
erased. -/
def afterRegistration : List Operation :=
  [connectAccount 2 8, connectAccount 1 9,
    .eraseAccount 2 "owner-b" ⟨50, sampleContracts.sha256Hex [], .verified⟩]

theorem loadActive_registered_replacement :
    loadActiveCredential boxAead replacementPat.key 1 .pat
        (runFrom (step sampleContracts) (registerToken boxAead 1 replacementPat
          (step sampleContracts emptyCatalog importOwners)).2 afterRegistration).tables =
        .ok "replacement" ∧
      loadActiveCredential boxAead replacementPat.key 1 (.oauth "client")
        (runFrom (step sampleContracts) (registerToken boxAead 1 replacementPat
          (step sampleContracts emptyCatalog importOwners)).2 afterRegistration).tables =
        .error .unavailable := by
  have hdone : (registerToken boxAead 1 replacementPat
      (step sampleContracts emptyCatalog importOwners)).1 = .ok () := by
    decide +kernel
  have hthere : hasAccount 1 (runFrom (step sampleContracts) (registerToken boxAead 1 replacementPat
      (step sampleContracts emptyCatalog importOwners)).2 afterRegistration).tables = true := by
    decide +kernel
  have hdrawn : ∀ op ∈ afterRegistration,
      replacementPat.accountId ∉ op.drawnAccounts.map Prod.fst := by
    intro op hop
    simp only [afterRegistration, List.mem_cons, List.not_mem_nil, or_false] at hop
    rcases hop with rfl | rfl | rfl <;> exact List.not_mem_nil
  have hloaded := loadActive_registered sampleContracts boxAead boxAead_documented
    (step sampleContracts emptyCatalog importOwners) 1 replacementPat afterRegistration hdone hdrawn
  exact ⟨(hloaded .pat).trans (if_pos ⟨hthere, rfl⟩),
    (hloaded (.oauth "client")).trans (if_neg fun h => by cases h.2)⟩

end GithubCatalog
