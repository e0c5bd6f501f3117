import GithubCatalog.StarAuthority

/-!
# The two loops of an import

The first loop finds or creates the account of each retired user and binds it under the source label;
the second writes each record that the source has not imported.  Both only add rows, so what a user or
a record resolves to in the catalog before the import is what it resolves to in every turn.

* `importLegacyAccounts_spec` - the account of each retired user;
* `importNewLegacyRepository_writes` - what one record writes;
* `newRecords` - the records the second loop does not skip.
-/

namespace GithubCatalog

open Relational Transact

/-! ### The request -/

/-- The integrations are read as they are. -/
theorem integrationsByUser_eq {given integrations : List LegacyIntegration}
    (h : integrationsByUser given = .ok integrations) : integrations = given := by
  induction given generalizing integrations with
  | nil =>
    cases h
    rfl
  | cons i rest ih =>
    simp only [integrationsByUser, bind, Except.bind] at h
    cases hrest : integrationsByUser rest with
    | error e =>
      rw [hrest] at h
      cases h
    | ok others =>
      rw [hrest] at h
      dsimp only at h
      split at h
      · cases h
      · cases h
        rw [ih hrest]

theorem ownerRef_eq_ok {ownerMap : List (ℤ × String)} {user : ℤ} {p : ℤ × String} :
    (ownerMap.lookup user).elim (.error CatalogError.unmappedLegacyUser)
        (fun owner => .ok (user, owner)) = Except.ok p ↔
      (ownerMap.lookup user).isSome = true ∧ p = (user, (ownerMap.lookup user).getD "") := by
  cases ownerMap.lookup user with
  | none => simp
  | some owner => simp [eq_comm]

/-- Every owner comes from the owner map. -/
theorem ownerRefs_mapped {request : LegacyImportRequest} {integrations : List LegacyIntegration}
    {owners : List (ℤ × String)} (h : ownerRefs request integrations = .ok owners) {p : ℤ × String}
    (hp : p ∈ owners) : request.ownerMap.lookup p.1 = some p.2 := by
  obtain ⟨hmapped, rfl⟩ := (mapM_eq_ok fun user p => ownerRef_eq_ok).mp h
  obtain ⟨user, huser, rfl⟩ := List.mem_map.mp hp
  obtain ⟨owner, howner⟩ := Option.isSome_iff_exists.mp (hmapped user huser)
  rw [howner]
  rfl

theorem mem_of_lookup {α β : Type} [DecidableEq α] {l : List (α × β)} {a : α} {b : β}
    (h : l.lookup a = some b) : (a, b) ∈ l := by
  obtain ⟨l₁, l₂, rfl, -⟩ := List.lookup_eq_some_iff.mp h
  exact List.mem_append_right _ List.mem_cons_self

theorem lookup_of_mem {α β : Type} [DecidableEq α] {l : List (α × β)} {a : α}
    (h : a ∈ l.map Prod.fst) : ∃ b, l.lookup a = some b := by
  obtain ⟨p, hp, rfl⟩ := List.mem_map.mp h
  exact Option.isSome_iff_exists.mp (List.lookup_isSome_iff.mpr ⟨p, hp, beq_self_eq_true _⟩)

/-! ### Accounts -/

/-- The account bound to a retired user under a source label. -/
def boundAccount (sourceId : String) (legacyUserId : ℤ) (db : Database) : Option Uuid :=
  (db.legacyImportAccounts.find? fun a =>
    decide (a.sourceId = sourceId) && decide (a.legacyUserId = legacyUserId)).map (·.accountId)

/-- The account an import finds for a retired user: the bound one, else the owner's account of the
same provider user. -/
def foundAccount (sourceId : String) (legacyUserId : ℤ) (ownerRef : String)
    (integration : Option LegacyIntegration) (db : Database) : Option Uuid :=
  (boundAccount sourceId legacyUserId db).or
    (existingProviderAccount ownerRef (integration.bind (·.providerUserId)) db)

/-- Accounts and bindings are only added. -/
structure AccountsAdded (db db' : Database) : Prop where
  accounts : ∃ extra, db'.githubAccounts = db.githubAccounts ++ extra
  bindings : ∃ extra, db'.legacyImportAccounts = db.legacyImportAccounts ++ extra

theorem AccountsAdded.refl (db : Database) : AccountsAdded db db :=
  ⟨⟨[], (List.append_nil _).symm⟩, ⟨[], (List.append_nil _).symm⟩⟩

theorem AccountsAdded.trans {db₁ db₂ db₃ : Database} (h : AccountsAdded db₁ db₂)
    (h' : AccountsAdded db₂ db₃) : AccountsAdded db₁ db₃ := by
  obtain ⟨xs, hxs⟩ := h.accounts
  obtain ⟨ys, hys⟩ := h'.accounts
  obtain ⟨us, hus⟩ := h.bindings
  obtain ⟨vs, hvs⟩ := h'.bindings
  exact ⟨⟨xs ++ ys, by rw [hys, hxs, List.append_assoc]⟩, ⟨us ++ vs, by rw [hvs, hus, List.append_assoc]⟩⟩

section added

variable {db db' : Database} {sourceId : String} {user : ℤ} {owner : String}
  {integration : Option LegacyIntegration}

theorem AccountsAdded.ids (h : AccountsAdded db db') :
    db.githubAccounts.map (·.accountId) ⊆ db'.githubAccounts.map (·.accountId) := by
  obtain ⟨extra, hextra⟩ := h.accounts
  rw [hextra, List.map_append]
  exact List.subset_append_left _ _

/-- A bound user stays bound to the same account. -/
theorem AccountsAdded.bound (h : AccountsAdded db db') {a : Uuid}
    (hbound : boundAccount sourceId user db = some a) : boundAccount sourceId user db' = some a := by
  obtain ⟨extra, hextra⟩ := h.bindings
  obtain ⟨b, hb, ha⟩ := Option.map_eq_some_iff.mp hbound
  rw [boundAccount, hextra, List.find?_append, hb, Option.some_or, Option.map_some, ha]

theorem AccountsAdded.existing (h : AccountsAdded db db') {n : Option ℤ} {a : Uuid}
    (hexisting : existingProviderAccount owner n db = some a) :
    existingProviderAccount owner n db' = some a := by
  obtain ⟨extra, hextra⟩ := h.accounts
  obtain ⟨n, hn, hfind⟩ := Option.bind_eq_some_iff.mp hexisting
  obtain ⟨b, hb, ha⟩ := Option.map_eq_some_iff.mp hfind
  rw [existingProviderAccount, hn, Option.bind_some, hextra, List.find?_append, hb, Option.some_or,
    Option.map_some, ha]

/-- An account found among more accounts was found before, or is one of the new ones. -/
theorem AccountsAdded.existing_of_old (h : AccountsAdded db db')
    (hunique : UniqueOn (·.accountId) db'.githubAccounts) {n : Option ℤ} {a : Uuid}
    (hexisting : existingProviderAccount owner n db' = some a)
    (hold : a ∈ db.githubAccounts.map (·.accountId)) :
    existingProviderAccount owner n db = some a := by
  obtain ⟨extra, hextra⟩ := h.accounts
  obtain ⟨n, hn, hfind⟩ := Option.bind_eq_some_iff.mp hexisting
  obtain ⟨b, hb, rfl⟩ := Option.map_eq_some_iff.mp hfind
  rw [hextra, List.find?_append, Option.or_eq_some_iff] at hb
  rw [existingProviderAccount, hn, Option.bind_some, Option.map_eq_some_iff]
  rcases hb with hb | ⟨-, hb⟩
  · exact ⟨b, hb, rfl⟩
  · obtain ⟨d, hd, hid⟩ := List.mem_map.mp hold
    have hmem : b ∈ extra := List.mem_of_find?_eq_some hb
    rw [hextra, UniqueOn, List.map_append, List.nodup_append] at hunique
    exact absurd hid (hunique.2.2 _ (List.mem_map_of_mem hd) _ (List.mem_map_of_mem hmem))

end added

/-- What the first loop leaves for one user. -/
structure AccountResolved (sourceId : String) (user : ℤ) (owner : String)
    (integration : Option LegacyIntegration) (db db' : Database) (a : Uuid) : Prop where
  bound : boundAccount sourceId user db' = some a
  found : ∀ b, foundAccount sourceId user owner integration db = some b → b = a
  old : a ∈ db.githubAccounts.map (·.accountId) →
    foundAccount sourceId user owner integration db = some a

section accounts

variable {fresh : Uuid} {sourceId : String} {user : ℤ} {owner : String}
  {integration : Option LegacyIntegration} {c c' : Catalog} {a : Uuid}

theorem createLegacyAccount_eq_ok (h : createLegacyAccount fresh owner integration c = .ok (a, c')) :
    (existingProviderAccount owner (integration.bind (·.providerUserId)) c.tables = some a ∧ c = c') ∨
      (existingProviderAccount owner (integration.bind (·.providerUserId)) c.tables = none ∧
        a = fresh ∧ ∃ row : GithubAccount, row.accountId = fresh ∧
          c'.tables = { c.tables with githubAccounts := c.tables.githubAccounts ++ [row] }) := by
  simp only [createLegacyAccount, Tx.bind_eq_ok, select_eq_ok] at h
  obtain ⟨existing, _, ⟨hexisting, rfl⟩, h⟩ := h
  cases existing with
  | some b =>
    obtain ⟨rfl, rfl⟩ := Tx.pure_eq_ok.mp h
    exact .inl ⟨hexisting, rfl⟩
  | none =>
    simp only [Tx.bind_eq_ok, write_eq_ok, Tx.pure_eq_ok] at h
    obtain ⟨-, c₁, h₁, rfl, rfl⟩ := h
    exact .inr ⟨hexisting, rfl, _, rfl, h₁⟩

theorem createLegacyAccount_added (h : createLegacyAccount fresh owner integration c = .ok (a, c')) :
    AccountsAdded c.tables c'.tables := by
  rcases createLegacyAccount_eq_ok h with ⟨-, rfl⟩ | ⟨-, -, row, -, htables⟩
  · exact .refl _
  · rw [htables]
    exact ⟨⟨[row], rfl⟩, ⟨[], (List.append_nil _).symm⟩⟩

/-- The account of one retired user; no other user's binding changes. -/
theorem importedAccountId_spec {imported : Bool}
    (h : importedAccountId fresh sourceId user owner integration c = .ok ((a, imported), c')) :
    AccountsAdded c.tables c'.tables ∧
      AccountResolved sourceId user owner integration c.tables c'.tables a ∧
      ∀ other, other ≠ user →
        boundAccount sourceId other c'.tables = boundAccount sourceId other c.tables := by
  simp only [importedAccountId, Tx.bind_eq_ok, select_eq_ok] at h
  obtain ⟨bound, _, ⟨hbound, rfl⟩, h⟩ := h
  change boundAccount sourceId user c.tables = bound at hbound
  cases bound with
  | some b =>
    obtain ⟨⟨⟩, rfl⟩ := Tx.pure_eq_ok.mp h
    have hfound : foundAccount sourceId user owner integration c.tables = some a := by
      rw [foundAccount, hbound, Option.some_or]
    refine ⟨.refl _, ⟨hbound, fun b hb => ?_, fun _ => hfound⟩, fun _ _ => rfl⟩
    rw [hfound] at hb
    exact (Option.some.inj hb).symm
  | none =>
    simp only [Tx.bind_eq_ok, write_eq_ok, Tx.pure_eq_ok, Prod.mk.injEq] at h
    obtain ⟨account, c₁, h₁, -, c₂, h₂, ⟨rfl, -⟩, rfl⟩ := h
    have hfound : foundAccount sourceId user owner integration c.tables =
        existingProviderAccount owner (integration.bind (·.providerUserId)) c.tables := by
      rw [foundAccount, hbound, Option.none_or]
    have hbindings : c₁.tables.legacyImportAccounts = c.tables.legacyImportAccounts :=
      (touches_createLegacyAccount _ _ _).rows_eq h₁ (t := .legacyImportAccounts) (by decide)
    have hadded : AccountsAdded c.tables c₁.tables := createLegacyAccount_added h₁
    have htables : c₂.tables.legacyImportAccounts =
        c.tables.legacyImportAccounts ++ [⟨sourceId, user, account⟩] := by
      rw [h₂, ← hbindings]
      rfl
    have haccounts : c₂.tables.githubAccounts = c₁.tables.githubAccounts := by
      rw [h₂]
      rfl
    refine ⟨⟨?_, _, htables⟩, ⟨?_, ?_, ?_⟩, ?_⟩
    · rw [haccounts]
      exact hadded.accounts
    · have hnone : (c.tables.legacyImportAccounts.find? fun b =>
          decide (b.sourceId = sourceId) && decide (b.legacyUserId = user)) = none :=
        Option.map_eq_none_iff.mp hbound
      rw [boundAccount, htables, List.find?_append, hnone, Option.none_or, List.find?_singleton]
      simp
    · intro b hb
      rw [hfound] at hb
      rcases createLegacyAccount_eq_ok h₁ with ⟨hexisting, -⟩ | ⟨hexisting, -⟩
      · rw [hexisting] at hb
        exact (Option.some.inj hb).symm
      · rw [hexisting] at hb
        cases hb
    · intro hold
      rw [hfound]
      rcases createLegacyAccount_eq_ok h₁ with ⟨hexisting, -⟩ | ⟨-, rfl, row, hrow, hcreated⟩
      · exact hexisting
      · -- A created account has an id no account had.
        have hunique := c₁.valid.keys.accounts
        rw [hcreated] at hunique
        have hfresh := UniqueOn.not_mem_of_append hunique
        rw [hrow] at hfresh
        exact absurd hold hfresh
    · intro other hother
      rw [boundAccount, htables, List.find?_append, List.find?_singleton, if_neg, Option.or_none]
      · rfl
      · simpa using hother.symm

end accounts

/-- **The first loop.**  Every retired user is bound to the account the catalog had for it, or to a new
one. -/
theorem importLegacyAccounts_spec {ids : ℤ → Uuid} {sourceId : String}
    {integrations : List LegacyIntegration} {owners : List (ℤ × String)} {c c' : Catalog}
    {accounts : List (ℤ × Uuid)} {n : ℕ}
    (h : importLegacyAccounts ids sourceId integrations owners c = .ok ((accounts, n), c')) :
    AccountsAdded c.tables c'.tables ∧ accounts.map Prod.fst = owners.map Prod.fst ∧
      ∀ user owner, owners.lookup user = some owner → ∃ a, accounts.lookup user = some a ∧
        AccountResolved sourceId user owner
          (integrations.find? fun i => decide (i.legacyUserId = user)) c.tables c'.tables a := by
  induction owners generalizing c accounts n with
  | nil =>
    obtain ⟨hout, rfl⟩ := Tx.pure_eq_ok.mp h
    obtain ⟨rfl, -⟩ := Prod.mk.inj hout
    refine ⟨.refl _, rfl, fun user owner hlookup => ?_⟩
    cases hlookup
  | cons p rest ih =>
    obtain ⟨first, firstOwner⟩ := p
    simp only [importLegacyAccounts, Tx.bind_eq_ok, Tx.pure_eq_ok, Prod.mk.injEq] at h
    obtain ⟨⟨a, imported⟩, c₁, h₁, ⟨others, m⟩, c₂, h₂, ⟨rfl, -⟩, rfl⟩ := h
    obtain ⟨hadded, hresolved, hother⟩ := importedAccountId_spec h₁
    obtain ⟨hadded', husers, hrest⟩ := ih h₂
    refine ⟨hadded.trans hadded', by rw [List.map_cons, List.map_cons, husers], ?_⟩
    intro user owner hlookup
    rw [List.lookup_cons] at hlookup
    by_cases huser : user = first
    · subst huser
      rw [beq_self_eq_true] at hlookup
      cases hlookup
      refine ⟨a, ?_, hadded'.bound hresolved.bound, hresolved.found, hresolved.old⟩
      rw [List.lookup_cons, beq_self_eq_true]
    · rw [beq_false_of_ne huser] at hlookup
      obtain ⟨b, hb, hres⟩ := hrest user owner hlookup
      refine ⟨b, ?_, hres.bound, fun d hd => ?_, fun hold => ?_⟩
      · rw [List.lookup_cons, beq_false_of_ne huser]
        exact hb
      · apply hres.found
        rw [foundAccount, Option.or_eq_some_iff] at hd ⊢
        rw [hother user huser]
        exact hd.imp_right fun hd => ⟨hd.1, hadded.existing hd.2⟩
      · have hafter := hres.old (hadded.ids hold)
        rw [foundAccount, Option.or_eq_some_iff, hother user huser] at hafter
        rw [foundAccount, Option.or_eq_some_iff]
        exact hafter.imp_right fun hd =>
          ⟨hd.1, hadded.existing_of_old c₁.valid.keys.accounts hd.2 hold⟩

/-! ### Records -/

/-- The records an import writes: the first of each id that the source has not imported. -/
def newRecords (sourceId : String) (db : Database) : List ℤ → List LegacyRepository →
    List LegacyRepository
  | _, [] => []
  | seen, record :: rest =>
    if alreadyImported sourceId record db || decide (record.legacyRepositoryId ∈ seen) then
      newRecords sourceId db seen rest
    else record :: newRecords sourceId db (record.legacyRepositoryId :: seen) rest

section record

variable {ids : ℕ → Uuid} {now : Time} {sourceId : String} {record : LegacyRepository}
  {account : Uuid} {c c' : Catalog}

/-- What the import of one record writes besides its alias and its claims. -/
structure RecordWritten (sourceId : String) (record : LegacyRepository) (account repository : Uuid)
    (observedAt : Time) (db db' : Database) : Prop where
  named : ∃ r, repositoryOf record.providerRepositoryId db' = some r ∧ r.repositoryId = repository
  repositories : ∃ extra, db'.repositories = db.repositories ++ extra
  records : db'.legacyImportRepositoryRecords = db.legacyImportRepositoryRecords ++
    [⟨sourceId, record.legacyRepositoryId, account, repository, record.starred⟩]
  stars : db'.currentStarState = if record.starred then
      upsertWhere (fun s => decide (s.key = (account, repository))) (legacyStarOver observedAt)
        (legacyStarRow account repository observedAt) db.currentStarState
    else db.currentStarState

theorem importNewLegacyRepository_writes {counts : ImportCounts}
    (h : importNewLegacyRepository ids now sourceId record account c = .ok (counts, c')) :
    ∃ repository, RecordWritten sourceId record account repository (record.observedAt.getD now)
      c.tables c'.tables := by
  simp only [importNewLegacyRepository, Tx.bind_eq_ok, Tx.pure_eq_ok] at h
  obtain ⟨repository, c₁, h₁, ⟨⟩, c₂, h₂, ⟨⟩, c₃, h₃, n, c₄, h₄, ⟨⟩, c₅, h₅, -, rfl⟩ := h
  obtain ⟨hrepos₁, hframe₁, r, hr, hpid, hid⟩ := upsertRepositoryInTx_spec h₁
  have halias : AgreeOff [.repositoryAliases] c₁.tables c₂.tables :=
    touches_recordLegacyAlias _ _ _ _ _ _ _ _ h₂
  have hstar : AgreeOff [.starObservations, .currentStarState] c₂.tables c₃.tables :=
    Touches.onlyIf (touches_importLegacyStar _ _ _ _) _ _ _ h₃
  have hclaims : AgreeOff [.legacyListClaims] c₃.tables c₄.tables :=
    touches_importLegacyListClaims _ _ _ _ _ _ _ _ _ h₄
  have hwritten := write_eq_ok.mp h₅
  have hrecords : AgreeOff [.legacyImportRepositoryRecords] c₄.tables c₅.tables :=
    Touches.write (List.mem_singleton.mpr rfl) _ _ _ _ h₅
  have hrepos : c₅.tables.repositories = c₁.tables.repositories :=
    (((hrecords .repositories (by decide)).trans (hclaims .repositories (by decide))).trans
      (hstar .repositories (by decide))).trans (halias .repositories (by decide))
  have hstars₂ : c₂.tables.currentStarState = c.tables.currentStarState :=
    (halias .currentStarState (by decide)).trans (hframe₁ .currentStarState (by decide))
  have hstars₅ : c₅.tables.currentStarState = c₃.tables.currentStarState :=
    (hrecords .currentStarState (by decide)).trans (hclaims .currentStarState (by decide))
  have hrecords₄ : c₄.tables.legacyImportRepositoryRecords =
      c.tables.legacyImportRepositoryRecords :=
    (((hclaims .legacyImportRepositoryRecords (by decide)).trans
      (hstar .legacyImportRepositoryRecords (by decide))).trans
      (halias .legacyImportRepositoryRecords (by decide))).trans
      (hframe₁ .legacyImportRepositoryRecords (by decide))
  refine ⟨repository, ⟨r, ?_, hid⟩, ?_, ?_, ?_⟩
  · rw [repositoryOf, hrepos, ← hpid]
    exact c₁.valid.keys.repositories_provider.find?_eq hr
  · rw [hrepos, hrepos₁, catalogued, insertUnless]
    split
    · exact ⟨[], (List.append_nil _).symm⟩
    · exact ⟨_, rfl⟩
  · rw [hwritten, ← hrecords₄]
    rfl
  · rw [hstars₅, ← hstars₂]
    unfold onlyIf at h₃
    split at h₃
    · next hstarred =>
      rw [if_pos hstarred]
      exact importLegacyStar_stars h₃
    · next hstarred =>
      obtain ⟨-, rfl⟩ := Tx.pure_eq_ok.mp h₃
      rw [if_neg hstarred]

theorem RecordWritten.alreadyImported {repository : Uuid} {observedAt : Time} {db db' : Database}
    (h : RecordWritten sourceId record account repository observedAt db db')
    (other : LegacyRepository) :
    alreadyImported sourceId other db' = (alreadyImported sourceId other db ||
      decide (record.legacyRepositoryId = other.legacyRepositoryId)) := by
  rw [GithubCatalog.alreadyImported, h.records, List.any_append]
  simp [GithubCatalog.alreadyImported]

/-- One turn of the second loop. -/
theorem importLegacyRepository_cases {accounts : List (ℤ × Uuid)} {counts : ImportCounts}
    (h : importLegacyRepository ids now sourceId accounts record c = .ok (counts, c')) :
    (alreadyImported sourceId record c.tables = true ∧ counts = {} ∧ c = c') ∨
      (alreadyImported sourceId record c.tables = false ∧
        ∃ account, accounts.lookup record.legacyUserId = some account ∧
          ∃ repository, RecordWritten sourceId record account repository (record.observedAt.getD now)
            c.tables c'.tables) := by
  simp only [importLegacyRepository, Tx.bind_eq_ok, select_eq_ok] at h
  obtain ⟨already, _, ⟨halready, rfl⟩, h⟩ := h
  cases already with
  | true =>
    obtain ⟨rfl, rfl⟩ := Tx.pure_eq_ok.mp h
    exact .inl ⟨halready, rfl, rfl⟩
  | false =>
    cases hlookup : accounts.lookup record.legacyUserId with
    | none =>
      rw [hlookup] at h
      exact (abort_eq_ok.mp h).elim
    | some account =>
      rw [hlookup] at h
      exact .inr ⟨halready, account, rfl, importNewLegacyRepository_writes h⟩

end record

end GithubCatalog
