import GithubCatalog.Lib.Join
import GithubCatalog.UnknownTimes
import Mathlib.Data.List.Induction

/-!
# The legacy shadow report (`legacy/shadow.rs`)

A shadow report compares what one retired source left behind with what the provider has confirmed
since.  Six statements count the disagreements, each in the state it finds, and the report that finds
none may be reviewed for the cutover.

* `ShadowStatement` - the six statements; `ShadowStatement.Clean` - what it means to find nothing;
* `ShadowCounts`, `canonicalJson`, `reportDigest` - the report and the body its digest addresses;
* `ShadowWorld` - report tasks under way beside the operations of the service;
* `shadowReports_evidenced` - every stored report says what was found, at six moments of the history;
* `cutoverReadiness_stays` - a source that was ready once stays ready, under the same digest.
-/

namespace GithubCatalog

open Relational Runs

/-! ### The statements -/

/-- `u32::try_from(count).unwrap_or(u32::MAX)` of the counted rows. -/
def shadowCount {α : Type} (rows : List α) : ℕ := min rows.length (2 ^ 32 - 1)

theorem shadowCount_eq_zero {α : Type} {rows : List α} : shadowCount rows = 0 ↔ rows = [] := by
  rw [← List.length_eq_zero_iff, shadowCount]
  omega

/-- The imported accounts beside the accounts they were bound to. -/
def importedAccounts (db : Database) : List (LegacyImportAccount × GithubAccount) :=
  innerJoin (fun ia a => decide (a.accountId = ia.accountId)) db.legacyImportAccounts
    db.githubAccounts

/-- Whether a completed run of a mode finished no earlier than `time`. -/
def completedSince (mode : SyncMode) (accountId : Uuid) (time : Time) (db : Database) : Bool :=
  db.syncRuns.any fun r => decide (r.accountId = accountId) && decide (r.mode = mode) &&
    decide (r.status = .completed) && r.finishedAt.any fun finished => decide (time ≤ finished)

def accountsReauthorizationRequired (sourceId : String) (db : Database) : ℕ :=
  shadowCount ((importedAccounts db).filter fun p =>
    decide (p.1.sourceId = sourceId) && decide (p.2.status ≠ .connected))

/-- `snapshot_missing_count`. -/
def snapshotMissingCount (mode : SyncMode) (sourceId : String) (db : Database) : ℕ :=
  shadowCount ((leftJoin (fun p credential => decide (credential.accountId = p.1.accountId))
      (importedAccounts db) db.githubAccountCredentials).filter fun p =>
    decide (p.1.1.sourceId = sourceId) && decide (p.1.2.status = .connected) &&
      p.2.all fun credential => !completedSince mode p.1.1.accountId credential.updatedAt db)

/-- An imported record and a star row of the same account and repository. -/
def recordStar (ir : LegacyImportRepositoryRecord) (cs : CurrentStarState) : Bool :=
  decide (cs.accountId = ir.accountId) && decide (cs.repositoryId = ir.repositoryId)

def starClaimsMismatched (sourceId : String) (db : Database) : ℕ :=
  shadowCount ((leftJoin recordStar db.legacyImportRepositoryRecords db.currentStarState).filter
    fun p => decide (p.1.sourceId = sourceId) &&
      decide (p.1.starred ≠ (p.2.map (·.starred)).getD false))

def providerStarTimesUnknownCount (sourceId : String) (db : Database) : ℕ :=
  shadowCount ((innerJoin recordStar db.legacyImportRepositoryRecords db.currentStarState).filter
    fun p => decide (p.1.sourceId = sourceId) && p.1.starred && p.2.starred &&
      p.2.providerStarredAtUnknown)

/-- What is counted are the stars of unknown time of the source. -/
theorem providerStarTimesUnknownCount_eq (sourceId : String) (db : Database) :
    providerStarTimesUnknownCount sourceId db = shadowCount (providerStarTimesUnknown sourceId db) := by
  unfold providerStarTimesUnknownCount providerStarTimesUnknown
  have hlength : ∀ (records : List LegacyImportRepositoryRecord) (stars : List CurrentStarState),
      ((innerJoin recordStar records stars).filter fun p => decide (p.1.sourceId = sourceId) &&
        p.1.starred && p.2.starred && p.2.providerStarredAtUnknown).length =
      ((records.filter fun r => decide (r.sourceId = sourceId) && r.starred).flatMap fun r =>
        stars.filter fun c => decide (c.key = (r.accountId, r.repositoryId)) && c.starred &&
          c.providerStarredAtUnknown).length := by
    intro records stars
    induction records with
    | nil => rfl
    | cons r rest ih =>
      rw [innerJoin, List.flatMap_cons, List.filter_append, List.length_append, ← innerJoin, ih,
        List.filter_map, List.length_map, List.filter_filter, List.filter_cons]
      cases hclaimed : decide (r.sourceId = sourceId) && r.starred with
      | true =>
        rw [if_pos rfl, List.flatMap_cons, List.length_append]
        congr 3
        funext c
        rw [recordStar, Function.comp, hclaimed, Bool.true_and, CurrentStarState.key]
        simp only [Prod.mk.injEq, Bool.decide_and]
        ac_rfl
      | false =>
        simp [Function.comp, hclaimed]
  rw [shadowCount, shadowCount, hlength]

/-- A claim and an active list of the claimed name. -/
def claimedList (lc : LegacyListClaim) (sl : StarList) : Bool :=
  decide (sl.accountId = lc.accountId) && decide (sl.name = lc.listName) &&
    decide (sl.status = .active)

/-- A claim with one of its lists, and a membership of the claimed repository in it. -/
def claimedMembership (p : LegacyListClaim × Option StarList) (lm : StarListMembership) : Bool :=
  p.2.any (fun sl => decide (lm.listId = sl.listId)) && decide (lm.repositoryId = p.1.repositoryId) &&
    lm.member

def listClaimsMissingFromProvider (sourceId : String) (db : Database) : ℕ :=
  shadowCount ((leftJoin claimedMembership (leftJoin claimedList db.legacyListClaims db.starLists)
      db.starListMemberships).filter fun p =>
    decide (p.1.1.sourceId = sourceId) && p.2.isNone)

/-- The six statements, named by the field they fill. -/
inductive ShadowStatement where
  | accountsReauthorizationRequired | fullSnapshotsMissing | listSnapshotsMissing
  | starClaimsMismatched | providerStarTimesUnknown | listClaimsMissingFromProvider
deriving DecidableEq

namespace ShadowStatement

/-- The order in which `collect_shadow_counts` awaits them. -/
def all : List ShadowStatement :=
  [.accountsReauthorizationRequired, .fullSnapshotsMissing, .listSnapshotsMissing,
    .starClaimsMismatched, .providerStarTimesUnknown, .listClaimsMissingFromProvider]

theorem mem_all (s : ShadowStatement) : s ∈ all := by
  cases s <;> decide

/-- What a statement counts in the state it finds. -/
def count : ShadowStatement → String → Database → ℕ
  | .accountsReauthorizationRequired => GithubCatalog.accountsReauthorizationRequired
  | .fullSnapshotsMissing => snapshotMissingCount .full
  | .listSnapshotsMissing => snapshotMissingCount .starLists
  | .starClaimsMismatched => GithubCatalog.starClaimsMismatched
  | .providerStarTimesUnknown => providerStarTimesUnknownCount
  | .listClaimsMissingFromProvider => GithubCatalog.listClaimsMissingFromProvider

end ShadowStatement

/-! ### What it means to find nothing -/

/-- A connected account of the source has a credential, and a run of the mode that completed under it. -/
def SnapshotTaken (mode : SyncMode) (sourceId : String) (db : Database) : Prop :=
  ∀ ia ∈ db.legacyImportAccounts, ia.sourceId = sourceId →
    ∀ a ∈ db.githubAccounts, a.accountId = ia.accountId → a.status = .connected →
      ∃ credential ∈ db.githubAccountCredentials, credential.accountId = ia.accountId ∧
        completedSince mode ia.accountId credential.updatedAt db = true

/-- What a state is like in which a statement counts nothing. -/
def ShadowStatement.Clean : ShadowStatement → String → Database → Prop
  | .accountsReauthorizationRequired, sourceId, db =>
    ∀ ia ∈ db.legacyImportAccounts, ia.sourceId = sourceId →
      ∀ a ∈ db.githubAccounts, a.accountId = ia.accountId → a.status = .connected
  | .fullSnapshotsMissing, sourceId, db => SnapshotTaken .full sourceId db
  | .listSnapshotsMissing, sourceId, db => SnapshotTaken .starLists sourceId db
  | .starClaimsMismatched, sourceId, db =>
    ∀ ir ∈ db.legacyImportRepositoryRecords, ir.sourceId = sourceId →
      ir.starred = starredBy ir.accountId ir.repositoryId db
  | .providerStarTimesUnknown, sourceId, db =>
    ∀ ir ∈ db.legacyImportRepositoryRecords, ir.sourceId = sourceId → ir.starred = true →
      ∀ cs ∈ db.currentStarState, cs.key = (ir.accountId, ir.repositoryId) → cs.starred = true →
        cs.providerStarredAtUnknown = false
  | .listClaimsMissingFromProvider, sourceId, db =>
    -- Provider names need not be unique: every active list of the name holds the repository.
    ∀ lc ∈ db.legacyListClaims, lc.sourceId = sourceId →
      (∃ sl ∈ db.starLists, claimedList lc sl = true) ∧
      ∀ sl ∈ db.starLists, claimedList lc sl = true →
        ∃ lm ∈ db.starListMemberships, lm.listId = sl.listId ∧ lm.repositoryId = lc.repositoryId ∧
          lm.member = true

section clean

variable {sourceId : String} {db : Database}

theorem accountsReauthorizationRequired_eq_zero :
    accountsReauthorizationRequired sourceId db = 0 ↔
      ShadowStatement.accountsReauthorizationRequired.Clean sourceId db := by
  rw [accountsReauthorizationRequired, shadowCount_eq_zero, importedAccounts, filter_innerJoin_eq_nil]
  simp only [decide_eq_true_eq, Bool.and_eq_false_iff, decide_eq_false_iff_not, not_not,
    ShadowStatement.Clean]
  exact ⟨fun h ia hia hsource a ha hid => (h ia hia a ha hid).resolve_left (not_not_intro hsource),
    fun h ia hia a ha hid => or_iff_not_imp_left.mpr fun hsource =>
      h ia hia (not_not.mp hsource) a ha hid⟩

/-- An account has one credential. -/
theorem snapshotMissingCount_eq_zero (hkeys : Keys db) {mode : SyncMode} :
    snapshotMissingCount mode sourceId db = 0 ↔ SnapshotTaken mode sourceId db := by
  rw [snapshotMissingCount, shadowCount_eq_zero, filter_leftJoin_eq_nil]
  constructor
  · intro h ia hia hsource a ha hid hconnected
    obtain ⟨hsome, hnone⟩ := h (ia, a) (mem_innerJoin.mpr ⟨hia, ha, decide_eq_true hid⟩)
    by_cases hmatch : ∃ credential ∈ db.githubAccountCredentials, credential.accountId = ia.accountId
    · obtain ⟨credential, hmem, heq⟩ := hmatch
      have hcounted := hsome credential hmem (decide_eq_true heq)
      simp only [hsource, hconnected, decide_true, Bool.and_self, Bool.true_and, Option.all_some,
        Bool.not_eq_false'] at hcounted
      exact ⟨credential, hmem, heq, hcounted⟩
    · have hcounted := hnone fun credential hmem =>
        decide_eq_false fun heq => hmatch ⟨credential, hmem, heq⟩
      simp [hsource, hconnected] at hcounted
  · rintro h ⟨ia, a⟩ hpair
    obtain ⟨hia, ha, hid⟩ := mem_innerJoin.mp hpair
    have hid := of_decide_eq_true hid
    by_cases hown : ia.sourceId = sourceId ∧ a.status = .connected
    · obtain ⟨credential, hmem, heq, hdone⟩ := h ia hia hown.1 a ha hid hown.2
      constructor
      · intro other hother hmatch
        have hsame : other = credential :=
          hkeys.credentials.eq_of_mem hother hmem ((of_decide_eq_true hmatch).trans heq.symm)
        simp [hsame, hdone]
      · intro hnone
        have hmatch := of_decide_eq_false (hnone credential hmem)
        exact absurd heq hmatch
    · have hskip : (decide (ia.sourceId = sourceId) && decide (a.status = .connected)) = false := by
        rw [← Bool.decide_and]
        exact decide_eq_false hown
      exact ⟨fun _ _ _ => by rw [hskip, Bool.false_and], fun _ => by rw [hskip, Bool.false_and]⟩

/-- An account has one star row for a repository. -/
theorem starredBy_of_row (hkeys : Keys db) {ir : LegacyImportRepositoryRecord} {cs : CurrentStarState}
    (hcs : cs ∈ db.currentStarState) (hmatch : recordStar ir cs = true) :
    starredBy ir.accountId ir.repositoryId db = cs.starred := by
  simp only [recordStar, Bool.and_eq_true, decide_eq_true_eq] at hmatch
  rw [starredBy, Bool.eq_iff_iff, List.any_eq_true]
  constructor
  · rintro ⟨other, hother, hrow⟩
    simp only [Bool.and_eq_true, decide_eq_true_eq] at hrow
    have hsame : other = cs := hkeys.stars.eq_of_mem hother hcs (by
      rw [hrow.1.1, hrow.1.2, hmatch.1, hmatch.2])
    rw [← hsame, hrow.2]
  · intro hstarred
    exact ⟨cs, hcs, by simp [hmatch, hstarred]⟩

theorem starredBy_of_none {ir : LegacyImportRepositoryRecord}
    (hnone : ∀ cs ∈ db.currentStarState, recordStar ir cs = false) :
    starredBy ir.accountId ir.repositoryId db = false := by
  rw [starredBy, List.any_eq_false]
  intro cs hcs hrow
  have hmiss := hnone cs hcs
  rw [Bool.and_eq_true] at hrow
  rw [recordStar, hrow.1] at hmiss
  cases hmiss

theorem starClaimsMismatched_eq_zero (hkeys : Keys db) : starClaimsMismatched sourceId db = 0 ↔
    ShadowStatement.starClaimsMismatched.Clean sourceId db := by
  rw [starClaimsMismatched, shadowCount_eq_zero, filter_leftJoin_eq_nil]
  simp only [Bool.and_eq_false_iff, decide_eq_false_iff_not, not_not, Option.map_some,
    Option.map_none, Option.getD_some, Option.getD_none, ShadowStatement.Clean]
  constructor
  · intro h ir hir hsource
    obtain ⟨hsome, hnone⟩ := h ir hir
    by_cases hmatch : ∃ cs ∈ db.currentStarState, recordStar ir cs = true
    · obtain ⟨cs, hcs, hrow⟩ := hmatch
      rw [starredBy_of_row hkeys hcs hrow]
      exact (hsome cs hcs hrow).resolve_left (not_not_intro hsource)
    · have hmiss : ∀ cs ∈ db.currentStarState, recordStar ir cs = false := fun cs hcs =>
        Bool.eq_false_iff.mpr fun hrow => hmatch ⟨cs, hcs, hrow⟩
      rw [starredBy_of_none hmiss]
      exact (hnone hmiss).resolve_left (not_not_intro hsource)
  · intro h ir hir
    constructor
    · intro cs hcs hrow
      rw [or_iff_not_imp_left, not_not]
      intro hsource
      rw [h ir hir hsource, starredBy_of_row hkeys hcs hrow]
    · intro hmiss
      rw [or_iff_not_imp_left, not_not]
      intro hsource
      rw [h ir hir hsource, starredBy_of_none hmiss]

theorem providerStarTimesUnknownCount_eq_zero : providerStarTimesUnknownCount sourceId db = 0 ↔
    ShadowStatement.providerStarTimesUnknown.Clean sourceId db := by
  rw [providerStarTimesUnknownCount, shadowCount_eq_zero, filter_innerJoin_eq_nil]
  constructor
  · intro h ir hir hsource hclaimed cs hcs hkey hstarred
    obtain ⟨haccount, hrepository⟩ := Prod.mk.inj hkey
    have hcounted := h ir hir cs hcs (by simp [recordStar, haccount, hrepository])
    simpa [hsource, hclaimed, hstarred] using hcounted
  · intro h ir hir cs hcs hmatch
    simp only [recordStar, Bool.and_eq_true, decide_eq_true_eq] at hmatch
    by_cases hown : (ir.sourceId = sourceId ∧ ir.starred = true) ∧ cs.starred = true
    · have hknown := h ir hir hown.1.1 hown.1.2 cs hcs
        (by rw [CurrentStarState.key, hmatch.1, hmatch.2]) hown.2
      simp [hknown]
    · simp only [not_and_or, Bool.not_eq_true] at hown
      rcases hown with (hsource | hclaimed) | hstarred
      · simp [hsource]
      · simp [hclaimed]
      · simp [hstarred]

/-- A claim is counted once for a missing list, and once for each list of its name without the
repository. -/
theorem listClaimsMissingFromProvider_eq_zero : listClaimsMissingFromProvider sourceId db = 0 ↔
    ShadowStatement.listClaimsMissingFromProvider.Clean sourceId db := by
  rw [listClaimsMissingFromProvider, shadowCount_eq_zero, filter_leftJoin_eq_nil]
  constructor
  · intro h lc hlc hsource
    -- No pair of the inner join goes without a membership.
    have hmember : ∀ sl, (lc, sl) ∈ leftJoin claimedList db.legacyListClaims db.starLists →
        ∃ lm ∈ db.starListMemberships, claimedMembership (lc, sl) lm = true := by
      intro sl hsl
      by_contra hmissing
      have hcounted := (h (lc, sl) hsl).2 fun lm hlm =>
        Bool.eq_false_iff.mpr fun hmatch => hmissing ⟨lm, hlm, hmatch⟩
      simp [hsource] at hcounted
    constructor
    · by_contra hnolist
      obtain ⟨lm, -, hmatch⟩ := hmember none (mem_leftJoin.mpr ⟨hlc, mem_leftMatches_none.mpr
        fun sl hsl => Bool.eq_false_iff.mpr fun hclaimed => hnolist ⟨sl, hsl, hclaimed⟩⟩)
      simp [claimedMembership] at hmatch
    · intro sl hsl hclaimed
      obtain ⟨lm, hlm, hmatch⟩ := hmember (some sl)
        (mem_leftJoin.mpr ⟨hlc, mem_leftMatches_some.mpr ⟨hsl, hclaimed⟩⟩)
      simp only [claimedMembership, Option.any_some, Bool.and_eq_true, decide_eq_true_eq] at hmatch
      exact ⟨lm, hlm, hmatch.1.1, hmatch.1.2, hmatch.2⟩
  · rintro h ⟨lc, sl⟩ hpair
    obtain ⟨hlc, hsl⟩ := mem_leftJoin.mp hpair
    refine ⟨fun lm _ _ => by simp, fun hmissing => ?_⟩
    by_cases hsource : lc.sourceId = sourceId
    · obtain ⟨⟨known, hknown, hclaimed⟩, hall⟩ := h lc hlc hsource
      cases sl with
      | none =>
        rw [mem_leftMatches_none.mp hsl known hknown] at hclaimed
        cases hclaimed
      | some sl =>
        obtain ⟨hsl, hclaimed⟩ := mem_leftMatches_some.mp hsl
        obtain ⟨lm, hlm, hlist, hrepository, hmember⟩ := hall sl hsl hclaimed
        have hmiss := hmissing lm hlm
        simp [claimedMembership, hlist, hrepository, hmember] at hmiss
    · simp [hsource]

/-- **What a statement finds.** -/
theorem ShadowStatement.count_eq_zero (hkeys : Keys db) (s : ShadowStatement) :
    s.count sourceId db = 0 ↔ s.Clean sourceId db := by
  cases s with
  | accountsReauthorizationRequired => exact accountsReauthorizationRequired_eq_zero
  | fullSnapshotsMissing => exact snapshotMissingCount_eq_zero hkeys
  | listSnapshotsMissing => exact snapshotMissingCount_eq_zero hkeys
  | starClaimsMismatched => exact starClaimsMismatched_eq_zero hkeys
  | providerStarTimesUnknown => exact providerStarTimesUnknownCount_eq_zero
  | listClaimsMissingFromProvider => exact listClaimsMissingFromProvider_eq_zero

end clean

/-! ### The report -/

structure ShadowCounts where
  accountsReauthorizationRequired : ℕ := 0
  fullSnapshotsMissing : ℕ := 0
  listSnapshotsMissing : ℕ := 0
  starClaimsMismatched : ℕ := 0
  providerStarTimesUnknown : ℕ := 0
  listClaimsMissingFromProvider : ℕ := 0
deriving DecidableEq

namespace ShadowCounts

/-- The count a statement fills. -/
def get (c : ShadowCounts) : ShadowStatement → ℕ
  | .accountsReauthorizationRequired => c.accountsReauthorizationRequired
  | .fullSnapshotsMissing => c.fullSnapshotsMissing
  | .listSnapshotsMissing => c.listSnapshotsMissing
  | .starClaimsMismatched => c.starClaimsMismatched
  | .providerStarTimesUnknown => c.providerStarTimesUnknown
  | .listClaimsMissingFromProvider => c.listClaimsMissingFromProvider

def set (c : ShadowCounts) (s : ShadowStatement) (n : ℕ) : ShadowCounts :=
  match s with
  | .accountsReauthorizationRequired => { c with accountsReauthorizationRequired := n }
  | .fullSnapshotsMissing => { c with fullSnapshotsMissing := n }
  | .listSnapshotsMissing => { c with listSnapshotsMissing := n }
  | .starClaimsMismatched => { c with starClaimsMismatched := n }
  | .providerStarTimesUnknown => { c with providerStarTimesUnknown := n }
  | .listClaimsMissingFromProvider => { c with listClaimsMissingFromProvider := n }

@[simp] theorem get_set_self (c : ShadowCounts) (s : ShadowStatement) (n : ℕ) :
    (c.set s n).get s = n := by
  cases s <;> rfl

theorem get_set_of_ne (c : ShadowCounts) {s t : ShadowStatement} (h : t ≠ s) (n : ℕ) :
    (c.set s n).get t = c.get t := by
  cases s <;> cases t <;> first | rfl | exact absurd rfl h

def isClean (c : ShadowCounts) : Bool :=
  decide (c.accountsReauthorizationRequired = 0) && decide (c.fullSnapshotsMissing = 0) &&
    decide (c.listSnapshotsMissing = 0) && decide (c.starClaimsMismatched = 0) &&
    decide (c.providerStarTimesUnknown = 0) && decide (c.listClaimsMissingFromProvider = 0)

theorem isClean_iff (c : ShadowCounts) : c.isClean = true ↔ ∀ s, c.get s = 0 := by
  simp only [isClean, Bool.and_eq_true, decide_eq_true_eq, and_assoc]
  constructor
  · rintro ⟨h₁, h₂, h₃, h₄, h₅, h₆⟩ s
    cases s <;> assumption
  · intro h
    exact ⟨h .accountsReauthorizationRequired, h .fullSnapshotsMissing, h .listSnapshotsMissing,
      h .starClaimsMismatched, h .providerStarTimesUnknown, h .listClaimsMissingFromProvider⟩

/-- A report that may be reviewed has found nothing at all. -/
theorem eq_of_isClean {c : ShadowCounts} (h : c.isClean = true) : c = {} := by
  simp only [isClean, Bool.and_eq_true, decide_eq_true_eq] at h
  obtain ⟨⟨⟨⟨⟨h₁, h₂⟩, h₃⟩, h₄⟩, h₅⟩, h₆⟩ := h
  cases c
  simp_all

end ShadowCounts

/-- What a report serializes of itself: neither its id nor its digest. -/
structure ShadowReportBody where
  sourceId : String
  counts : ShadowCounts
  cutoverReviewable : Bool
deriving DecidableEq

/-- A field with a number, and the comma behind it. -/
def numberField (name : String) (n : ℕ) : List Char :=
  TextCode.writeString name ++ ':' :: (TextCode.writeNat n ++ [','])

/-- `canonical_json`. -/
def canonicalJson (body : ShadowReportBody) : List Char :=
  '{' :: (TextCode.writeString "source_id" ++ ':' :: (TextCode.writeString body.sourceId ++
    ',' :: (numberField "accounts_reauthorization_required"
        body.counts.accountsReauthorizationRequired ++
      (numberField "full_snapshots_missing" body.counts.fullSnapshotsMissing ++
      (numberField "list_snapshots_missing" body.counts.listSnapshotsMissing ++
      (numberField "star_claims_mismatched" body.counts.starClaimsMismatched ++
      (numberField "provider_star_times_unknown" body.counts.providerStarTimesUnknown ++
      (numberField "list_claims_missing_from_provider"
        body.counts.listClaimsMissingFromProvider ++
      (TextCode.writeString "cutover_reviewable" ++
        ':' :: ((toString body.cutoverReviewable).toList ++ ['}'])))))))))) 

theorem delimited_numberField (name : String) : TextCode.Delimited (numberField name) := by
  have hnumber : TextCode.Delimited fun n => TextCode.writeNat n ++ [','] := by
    refine TextCode.delimited_until TextCode.writeNat_injective fun n hmem => ?_
    exact absurd (TextCode.isDigit_of_mem_writeNat hmem) (by decide)
  intro m n r s h
  simp only [numberField, List.append_assoc, List.cons_append, List.append_cancel_left_eq,
    List.cons.injEq, true_and] at h
  exact hnumber m n r s (by simpa only [List.append_assoc, List.cons_append, List.nil_append] using h)

/-- **Unique readability.**  The body of a report says its source, its six counts and its verdict. -/
theorem canonicalJson_injective : Function.Injective canonicalJson := by
  intro a b h
  simp only [canonicalJson, List.cons.injEq, true_and, List.append_cancel_left_eq] at h
  obtain ⟨hsource, h⟩ := TextCode.delimited_writeString _ _ _ _ h
  obtain ⟨h₁, h⟩ := delimited_numberField _ _ _ _ _ (List.cons.inj h).2
  obtain ⟨h₂, h⟩ := delimited_numberField _ _ _ _ _ h
  obtain ⟨h₃, h⟩ := delimited_numberField _ _ _ _ _ h
  obtain ⟨h₄, h⟩ := delimited_numberField _ _ _ _ _ h
  obtain ⟨h₅, h⟩ := delimited_numberField _ _ _ _ _ h
  obtain ⟨h₆, h⟩ := delimited_numberField _ _ _ _ _ h
  have hverdict : a.cutoverReviewable = b.cutoverReviewable := by
    cases ha : a.cutoverReviewable <;> cases hb : b.cutoverReviewable <;>
      first | rfl | (rw [ha, hb] at h; exact absurd h (by decide))
  obtain ⟨_, ⟨⟩, _⟩ := a
  obtain ⟨_, ⟨⟩, _⟩ := b
  simp_all

/-- The stored body: `jsonb` orders the members by length, then by text. -/
def reportValue (body : ShadowReportBody) : Jsonb :=
  .obj [("source_id", .str body.sourceId), ("cutover_reviewable", .bool body.cutoverReviewable),
    ("full_snapshots_missing", .num (toString body.counts.fullSnapshotsMissing)),
    ("list_snapshots_missing", .num (toString body.counts.listSnapshotsMissing)),
    ("star_claims_mismatched", .num (toString body.counts.starClaimsMismatched)),
    ("provider_star_times_unknown", .num (toString body.counts.providerStarTimesUnknown)),
    ("accounts_reauthorization_required",
      .num (toString body.counts.accountsReauthorizationRequired)),
    ("list_claims_missing_from_provider",
      .num (toString body.counts.listClaimsMissingFromProvider))]

/-- The digest `persist_shadow_report` stores. -/
def reportDigest (k : Contracts) (body : ShadowReportBody) : String :=
  k.sha256Hex (String.ofList (canonicalJson body)).toUTF8.data.toList

/-- The row `persist_shadow_report` inserts. -/
def reportRow (k : Contracts) (reportId : Uuid) (now : Time) (body : ShadowReportBody) :
    LegacyShadowReport :=
  ⟨reportId, body.sourceId, reportDigest k body, reportValue body, body.cutoverReviewable, now⟩

/-- `order by created_at desc, report_id desc`: whether `a` comes before `b`. -/
def LegacyShadowReport.newer (a b : LegacyShadowReport) : Bool :=
  decide (b.createdAt < a.createdAt) ||
    (decide (a.createdAt = b.createdAt) && decide (b.reportId.toNat < a.reportId.toNat))

inductive LegacyShadowError where
  | invalidSourceId | notReviewable
deriving DecidableEq

/-- The reports of a source that may be reviewed. -/
def reviewableReports (sourceId : String) (db : Database) : List LegacyShadowReport :=
  db.legacyShadowReports.filter fun r => decide (r.sourceId = sourceId) && r.cutoverReviewable

theorem mem_reviewableReports {sourceId : String} {db : Database} {r : LegacyShadowReport} :
    r ∈ reviewableReports sourceId db ↔
      r ∈ db.legacyShadowReports ∧ r.sourceId = sourceId ∧ r.cutoverReviewable = true := by
  simp [reviewableReports]

/-- `legacy_cutover_readiness`: the id and the digest of the newest report that may be reviewed. -/
def legacyCutoverReadiness (sourceId : String) (db : Database) :
    Except LegacyShadowError (Uuid × String) :=
  if !validSourceId sourceId then .error .invalidSourceId
  else
    match firstBy LegacyShadowReport.newer (reviewableReports sourceId db) with
    | some r => .ok (r.reportId, r.reportDigest)
    | none => .error .notReviewable

/-! ### Reports under way -/

/-- `generate_legacy_shadow_report` between two of its awaits. -/
structure ShadowTask where
  sourceId : String
  counts : ShadowCounts := {}
  remaining : List ShadowStatement := ShadowStatement.all

/-- The body of a report whose statements are all answered. -/
def ShadowTask.body (task : ShadowTask) : ShadowReportBody :=
  ⟨task.sourceId, task.counts, task.counts.isClean⟩

/-- The catalog, and the reports under way. -/
structure ShadowWorld where
  catalog : Catalog
  tasks : ℕ → Option ShadowTask

inductive ShadowEvent where
  /-- Another flow commits an operation. -/
  | operation (op : Operation)
  /-- A report is asked for. -/
  | start (task : ℕ) (sourceId : String)
  /-- A task awaits its next statement. -/
  | read (task : ℕ)
  /-- A task stores its report. -/
  | persist (task : ℕ) (reportId : Uuid) (now : Time)

/-- Whether an operation stores a report, which only a task does. -/
def Operation.reports : Operation → Bool
  | .persistShadowReport _ => true
  | _ => false

namespace ShadowWorld

def empty : ShadowWorld := ⟨emptyCatalog, fun _ => none⟩

/-- Put a task where it stands now. -/
def put (w : ShadowWorld) (n : ℕ) (task : Option ShadowTask) : ShadowWorld :=
  { w with tasks := Function.update w.tasks n task }

def step (k : Contracts) (w : ShadowWorld) : ShadowEvent → ShadowWorld
  | .operation op => if op.reports then w else { w with catalog := GithubCatalog.step k w.catalog op }
  | .start n sourceId => if validSourceId sourceId then w.put n (some { sourceId }) else w
  | .read n =>
    match w.tasks n with
    | some ⟨sourceId, counts, s :: rest⟩ =>
      w.put n (some ⟨sourceId, counts.set s (s.count sourceId w.catalog.tables), rest⟩)
    | _ => w
  | .persist n reportId now =>
    match w.tasks n with
    | some ⟨sourceId, counts, []⟩ =>
      { w.put n none with
        catalog := (persistShadowReport
          (reportRow k reportId now ⟨sourceId, counts, counts.isClean⟩)).commit w.catalog }
    | _ => w

end ShadowWorld

/-! ### What a stored report says -/

/-- The world at a moment of a history. -/
def worldAt (k : Contracts) (events : List ShadowEvent) (n : ℕ) : ShadowWorld :=
  runFrom (ShadowWorld.step k) .empty (events.take n)

/-- The statements `done` were answered one after the other, and counted what `counts` says. -/
def CountedAt (k : Contracts) (events : List ShadowEvent) (sourceId : String) (counts : ShadowCounts)
    (done : List ShadowStatement) : Prop :=
  ∃ moments : List ℕ, moments.Pairwise (· ≤ ·) ∧
    List.Forall₂ (fun s n => n ≤ events.length ∧
      counts.get s = s.count sourceId (worldAt k events n).catalog.tables) done moments

section evidence

variable {k : Contracts} {events : List ShadowEvent} {sourceId : String} {counts : ShadowCounts}
  {done : List ShadowStatement}

theorem worldAt_append {n : ℕ} (h : n ≤ events.length) (e : ShadowEvent) :
    worldAt k (events ++ [e]) n = worldAt k events n := by
  rw [worldAt, List.take_append_of_le_length h, worldAt]

theorem worldAt_length (e : ShadowEvent) : worldAt k (events ++ [e]) events.length =
    runFrom (ShadowWorld.step k) .empty events := by
  rw [worldAt, List.take_left]

theorem countedAt_nil : CountedAt k events sourceId {} [] :=
  ⟨[], List.Pairwise.nil, List.Forall₂.nil⟩

theorem CountedAt.later (h : CountedAt k events sourceId counts done) (e : ShadowEvent) :
    CountedAt k (events ++ [e]) sourceId counts done := by
  obtain ⟨moments, hordered, hcounted⟩ := h
  refine ⟨moments, hordered, hcounted.imp fun s n => ?_⟩
  rintro ⟨hle, hcount⟩
  rw [worldAt_append hle, List.length_append]
  exact ⟨Nat.le_add_right_of_le hle, hcount⟩

/-- Answering one more statement. -/
theorem CountedAt.read {w : ShadowWorld} (hw : runFrom (ShadowWorld.step k) .empty events = w)
    (h : CountedAt k events sourceId counts done) {s : ShadowStatement} (hs : s ∉ done)
    (e : ShadowEvent) : CountedAt k (events ++ [e]) sourceId
      (counts.set s (s.count sourceId w.catalog.tables)) (done ++ [s]) := by
  obtain ⟨moments, hordered, hcounted⟩ := h
  have hbound : ∀ n ∈ moments, n ≤ events.length := by
    intro n hn
    obtain ⟨t, -, hle, -⟩ := exists_mem_of_forall₂ hcounted.flip hn
    exact hle
  refine ⟨moments ++ [events.length], ?_, ?_⟩
  · rw [List.pairwise_append]
    refine ⟨hordered, List.pairwise_singleton _ _, fun n hn m hm => ?_⟩
    rw [List.mem_singleton.mp hm]
    exact hbound n hn
  · refine List.rel_append ?_ (List.Forall₂.cons ⟨?_, ?_⟩ List.Forall₂.nil)
    · have hother : ∀ t ∈ done, t ≠ s := fun t ht heq => hs (heq ▸ ht)
      refine ((List.forall₂_and_left _ _).mpr ⟨hother, hcounted⟩).imp fun t n => ?_
      rintro ⟨hne, hle, hcount⟩
      rw [ShadowCounts.get_set_of_ne _ hne, worldAt_append hle, List.length_append]
      exact ⟨Nat.le_add_right_of_le hle, hcount⟩
    · rw [List.length_append]
      exact Nat.le_add_right _ _
    · rw [ShadowCounts.get_set_self, worldAt_length, hw]

/-- A task under way: its source is a valid label, and the statements before the remaining ones are
answered. -/
structure ShadowTask.Evidenced (k : Contracts) (events : List ShadowEvent) (task : ShadowTask) :
    Prop where
  counted : ∃ done, done ++ task.remaining = ShadowStatement.all ∧
    CountedAt k events task.sourceId task.counts done

/-- A stored report, and the counts it was made of. -/
def Reported (k : Contracts) (events : List ShadowEvent) (r : LegacyShadowReport) : Prop :=
  ∃ counts : ShadowCounts,
    r = reportRow k r.reportId r.createdAt ⟨r.sourceId, counts, counts.isClean⟩ ∧
      CountedAt k events r.sourceId counts ShadowStatement.all

/-- What holds of the world after a history. -/
structure ShadowWorld.Evidenced (k : Contracts) (events : List ShadowEvent) (w : ShadowWorld) : Prop
    where
  tasks : ∀ n task, w.tasks n = some task → task.Evidenced k events
  reports : ∀ r ∈ w.catalog.tables.legacyShadowReports, Reported k events r

theorem ShadowWorld.Evidenced.later {w : ShadowWorld} (h : w.Evidenced k events) (e : ShadowEvent) :
    w.Evidenced k (events ++ [e]) where
  tasks n task htask := by
    obtain ⟨done, hdone, hcounted⟩ := (h.tasks n task htask).counted
    exact ⟨done, hdone, hcounted.later e⟩
  reports r hr := by
    obtain ⟨counts, hrow, hcounted⟩ := h.reports r hr
    exact ⟨counts, hrow, hcounted.later e⟩

/-- A task takes its place. -/
theorem ShadowWorld.Evidenced.put {w : ShadowWorld} (h : w.Evidenced k events) (n : ℕ)
    {task : Option ShadowTask} (htask : ∀ t, task = some t → t.Evidenced k events) :
    (w.put n task).Evidenced k events where
  tasks m t hm := by
    simp only [ShadowWorld.put, Function.update_apply] at hm
    split at hm
    · exact htask t hm
    · exact h.tasks m t hm
  reports := h.reports

/-- The reports that an operation of another flow leaves. -/
theorem reports_step (c : Catalog) {op : Operation} (hop : op.reports = false) :
    (step k c op).tables.legacyShadowReports = c.tables.legacyShadowReports := by
  have hleaves : op.leaves .legacyShadowReports = true := by
    cases op with
    | persistShadowReport => cases hop
    | _ => rfl
  unfold step
  split
  · exact op.rows_commit k c .legacyShadowReports hleaves
  · rfl

/-- The reports after one more was stored, or refused. -/
theorem reports_persist (row : LegacyShadowReport) (c : Catalog) :
    ((persistShadowReport row).commit c).tables.legacyShadowReports =
        c.tables.legacyShadowReports ++ [row] ∨
      ((persistShadowReport row).commit c).tables.legacyShadowReports =
        c.tables.legacyShadowReports := by
  rcases Transact.Tx.commit_cases (persistShadowReport row) c with ⟨u, h⟩ | hsame
  · rw [write_eq_ok.mp h]
    exact .inl rfl
  · rw [hsame]
    exact .inr rfl

/-- **One event.** -/
theorem ShadowWorld.Evidenced.step {w : ShadowWorld} (hw : runFrom (ShadowWorld.step k) .empty events = w)
    (h : w.Evidenced k events) (e : ShadowEvent) : (w.step k e).Evidenced k (events ++ [e]) := by
  have hlater := h.later e
  cases e with
  | operation op =>
    simp only [ShadowWorld.step]
    split
    · exact hlater
    · next hop =>
      refine ⟨hlater.tasks, fun r hr => hlater.reports r ?_⟩
      rw [← reports_step (k := k) _ (Bool.eq_false_iff.mpr hop)]
      exact hr
  | start n sourceId =>
    simp only [ShadowWorld.step]
    split
    · refine hlater.put n ?_
      rintro _ ⟨⟩
      exact ⟨[], rfl, countedAt_nil⟩
    · exact hlater
  | read n =>
    simp only [ShadowWorld.step]
    split
    · next sourceId counts s rest htask =>
      refine hlater.put n ?_
      rintro _ ⟨⟩
      obtain ⟨done, hdone, hcounted⟩ := (h.tasks n _ htask).counted
      have hfresh : s ∉ done := by
        have hnodup : (done ++ s :: rest).Nodup := hdone ▸ (by decide : ShadowStatement.all.Nodup)
        exact fun hs => (List.nodup_append.mp hnodup).2.2 s hs s List.mem_cons_self rfl
      exact ⟨done ++ [s], by rw [List.append_assoc]; exact hdone, CountedAt.read hw hcounted hfresh _⟩
    · exact hlater
  | persist n reportId now =>
    simp only [ShadowWorld.step]
    split
    · next sourceId counts htask =>
      have hrest := hlater.put n fun t (ht : none = some t) => (Option.some_ne_none t ht.symm).elim
      refine ⟨hrest.tasks, fun r hr => ?_⟩
      have hrows : r ∈ w.catalog.tables.legacyShadowReports ∨
          r = reportRow k reportId now ⟨sourceId, counts, counts.isClean⟩ := by
        rcases reports_persist (reportRow k reportId now ⟨sourceId, counts, counts.isClean⟩) w.catalog
          with happend | hsame
        · rw [happend, List.mem_append, List.mem_singleton] at hr
          exact hr
        · rw [hsame] at hr
          exact .inl hr
      rcases hrows with hold | rfl
      · exact hlater.reports r hold
      · obtain ⟨done, hdone, hcounted⟩ := (hlater.tasks n _ htask).counted
        rw [List.append_nil] at hdone
        exact ⟨counts, rfl, hdone ▸ hcounted⟩
    · exact hlater

theorem ShadowWorld.evidenced_run (k : Contracts) (events : List ShadowEvent) :
    (runFrom (ShadowWorld.step k) .empty events).Evidenced k events := by
  induction events using List.reverseRecOn with
  | nil => exact ⟨fun _ _ h => (Option.some_ne_none _ h.symm).elim, fun _ h => (List.not_mem_nil h).elim⟩
  | append_singleton events e ih =>
    rw [runFrom_append]
    exact ih.step rfl e

end evidence

/-- **What a stored report says.**  Whatever flows ran beside it, each count of a stored report is what
its statement found at one of six successive moments of the history, the digest is that of the body with
these counts, and a report may be reviewed exactly when at each moment its statement had nothing to find. -/
theorem shadowReports_evidenced (k : Contracts) (events : List ShadowEvent) :
    ∀ r ∈ (runFrom (ShadowWorld.step k) .empty events).catalog.tables.legacyShadowReports,
      ∃ (counts : ShadowCounts) (moments : List ℕ),
        r = reportRow k r.reportId r.createdAt ⟨r.sourceId, counts, counts.isClean⟩ ∧
        moments.Pairwise (· ≤ ·) ∧
        List.Forall₂ (fun s n => n ≤ events.length ∧
          counts.get s = s.count r.sourceId (worldAt k events n).catalog.tables)
          ShadowStatement.all moments ∧
        (r.cutoverReviewable = true ↔ List.Forall₂ (fun s n =>
          s.Clean r.sourceId (worldAt k events n).catalog.tables) ShadowStatement.all moments) := by
  intro r hr
  obtain ⟨counts, hrow, moments, hordered, hcounted⟩ :=
    (ShadowWorld.evidenced_run k events).reports r hr
  refine ⟨counts, moments, hrow, hordered, hcounted, ?_⟩
  have hverdict : r.cutoverReviewable = counts.isClean := congrArg LegacyShadowReport.cutoverReviewable hrow
  rw [hverdict, ShadowCounts.isClean_iff]
  have hclean : ∀ s n, n ≤ events.length ∧
      counts.get s = s.count r.sourceId (worldAt k events n).catalog.tables →
      (counts.get s = 0 ↔ s.Clean r.sourceId (worldAt k events n).catalog.tables) := by
    rintro s n ⟨-, hcount⟩
    rw [hcount]
    exact ShadowStatement.count_eq_zero (worldAt k events n).catalog.valid.keys s
  constructor
  · intro hzero
    exact hcounted.imp fun s n h => (hclean s n h).mp (hzero s)
  · intro hall s
    have hpaired : List.Forall₂ (fun s n => (s, n) ∈ ShadowStatement.all.zip moments)
        ShadowStatement.all moments := List.forall₂_iff_zip.mpr ⟨hcounted.length_eq, fun h => h⟩
    obtain ⟨n, -, hpair⟩ := exists_mem_of_forall₂ hpaired (ShadowStatement.mem_all s)
    exact (hclean s n ((List.forall₂_iff_zip.mp hcounted).2 hpair)).mpr
      ((List.forall₂_iff_zip.mp hall).2 hpair)

/-! ### Readiness -/

/-- A report that may be reviewed has the body of its source that found nothing. -/
theorem Reported.digest_eq {k : Contracts} {events : List ShadowEvent} {r : LegacyShadowReport}
    (h : Reported k events r) (hreviewable : r.cutoverReviewable = true) :
    r.reportDigest = reportDigest k ⟨r.sourceId, {}, true⟩ := by
  obtain ⟨counts, hrow, -⟩ := h
  have hclean : counts.isClean = true :=
    (congrArg LegacyShadowReport.cutoverReviewable hrow).symm.trans hreviewable
  have hdigest : r.reportDigest = reportDigest k ⟨r.sourceId, counts, counts.isClean⟩ :=
    congrArg LegacyShadowReport.reportDigest hrow
  rw [hdigest, hclean, ShadowCounts.eq_of_isClean hclean]

/-- A source with a report that may be reviewed is ready, under the digest of its clean body. -/
theorem legacyCutoverReadiness_of_report {k : Contracts} {events : List ShadowEvent} {sourceId : String}
    {r : LegacyShadowReport} (hsource : validSourceId sourceId = true)
    (hr : r ∈ reviewableReports sourceId
      (runFrom (ShadowWorld.step k) .empty events).catalog.tables) :
    ∃ id, legacyCutoverReadiness sourceId
      (runFrom (ShadowWorld.step k) .empty events).catalog.tables =
        .ok (id, reportDigest k ⟨sourceId, {}, true⟩) := by
  rw [legacyCutoverReadiness, hsource, Bool.not_true, if_neg Bool.false_ne_true]
  cases hfound : firstBy LegacyShadowReport.newer (reviewableReports sourceId
      (runFrom (ShadowWorld.step k) .empty events).catalog.tables) with
  | none =>
    rw [firstBy_eq_none hfound] at hr
    exact (List.not_mem_nil hr).elim
  | some found =>
    obtain ⟨hmem, hown, hreviewable⟩ := mem_reviewableReports.mp (firstBy_mem hfound)
    have hdigest := ((ShadowWorld.evidenced_run k events).reports found hmem).digest_eq hreviewable
    rw [hown] at hdigest
    exact ⟨found.reportId, by rw [← hdigest]⟩

/-- No event takes a report away. -/
theorem reports_prefix_step (k : Contracts) (w : ShadowWorld) (e : ShadowEvent) :
    w.catalog.tables.legacyShadowReports <+: (w.step k e).catalog.tables.legacyShadowReports := by
  cases e with
  | operation op =>
    simp only [ShadowWorld.step]
    split
    · exact List.prefix_rfl
    · next hop => exact (reports_step w.catalog (Bool.eq_false_iff.mpr hop)).symm ▸ List.prefix_rfl
  | start n sourceId =>
    simp only [ShadowWorld.step]
    split <;> exact List.prefix_rfl
  | read n =>
    simp only [ShadowWorld.step]
    split <;> exact List.prefix_rfl
  | persist n reportId now =>
    simp only [ShadowWorld.step]
    split
    · next sourceId counts _ =>
      rcases reports_persist (reportRow k reportId now ⟨sourceId, counts, counts.isClean⟩) w.catalog
        with happend | hsame
      · exact happend.symm ▸ List.prefix_append _ _
      · exact hsame.symm ▸ List.prefix_rfl
    · exact List.prefix_rfl

theorem reports_prefix_run (k : Contracts) (w : ShadowWorld) (events : List ShadowEvent) :
    w.catalog.tables.legacyShadowReports <+:
      (runFrom (ShadowWorld.step k) w events).catalog.tables.legacyShadowReports := by
  induction events generalizing w with
  | nil => exact List.prefix_rfl
  | cons e rest ih => exact (reports_prefix_step k w e).trans (ih _)

/-- **Readiness is not taken back.**  Once a source is ready it stays ready, whatever is imported,
erased or reported after; and the digest that it is ready under depends on the source's label only. -/
theorem cutoverReadiness_stays (k : Contracts) (events more : List ShadowEvent) (sourceId : String)
    (id : Uuid) (digest : String)
    (hready : legacyCutoverReadiness sourceId
      (runFrom (ShadowWorld.step k) .empty events).catalog.tables = .ok (id, digest)) :
    digest = reportDigest k ⟨sourceId, {}, true⟩ ∧
      ∃ later, legacyCutoverReadiness sourceId
        (runFrom (ShadowWorld.step k) .empty (events ++ more)).catalog.tables = .ok (later, digest) := by
  unfold legacyCutoverReadiness at hready
  split at hready
  · cases hready
  · next hinvalid =>
    have hsource : validSourceId sourceId = true := by simpa using hinvalid
    split at hready
    · next found hfound =>
      obtain ⟨hmem, hown, hreviewable⟩ := mem_reviewableReports.mp (firstBy_mem hfound)
      have hdigest := ((ShadowWorld.evidenced_run k events).reports found hmem).digest_eq hreviewable
      rw [hown, (Prod.mk.inj (Except.ok.inj hready)).2] at hdigest
      refine ⟨hdigest, ?_⟩
      have hkept : found ∈
          (runFrom (ShadowWorld.step k) .empty (events ++ more)).catalog.tables.legacyShadowReports := by
        rw [runFrom_append]
        exact (reports_prefix_run k _ more).subset hmem
      rw [hdigest]
      exact legacyCutoverReadiness_of_report hsource
        (mem_reviewableReports.mpr ⟨hkept, hown, hreviewable⟩)
    · cases hready

/-! ### A source that was ready -/

/-- A report of the retired source, asked for and stored with nothing between. -/
def reportOnce (task : ℕ) (reportId : Uuid) (now : Time) : List ShadowEvent :=
  .start task "retired" :: ShadowStatement.all.map (fun _ => .read task) ++ [.persist task reportId now]

/-- Both snapshots of an account, over nothing upstream. -/
def snapshotsOf (accountId run listRun : Uuid) : List Operation :=
  [.openRun .full run accountId 1, .applyAuthority (fun n => 600 + BitVec.ofNat 128 n)
      (fun n => 700 + BitVec.ofNat 128 n) 2 run accountId,
    .openRun .starLists listRun accountId 3,
    .applyListAuthority (fun n => 610 + BitVec.ofNat 128 n) (fun n => 620 + BitVec.ofNat 128 n)
      (fun n => 630 + BitVec.ofNat 128 n) 4 listRun accountId]

/-- Two imported owners, connected again, and a report after their snapshots. -/
def reviewedSource : List ShadowEvent :=
  (connectOwners ++ snapshotsOf 1 40 41 ++ snapshotsOf 2 42 43).map .operation ++ reportOnce 0 50 5

theorem shadowReports_evidenced_reviewed : ∃ moments : List ℕ, List.Forall₂ (fun s n =>
    s.Clean "retired" (worldAt sampleContracts reviewedSource n).catalog.tables)
      ShadowStatement.all moments := by
  obtain ⟨_, moments, -, -, -, hverdict⟩ := shadowReports_evidenced sampleContracts reviewedSource
    (reportRow sampleContracts 50 5 ⟨"retired", {}, true⟩) (by decide +kernel)
  exact ⟨moments, hverdict.mp rfl⟩

/-- A third retired user, whose account nobody connected, and a report that counts it. -/
def reimportedSource : List ShadowEvent :=
  .operation (.importLegacy (BitVec.ofInt 128) (fun _ n => BitVec.ofNat 128 n) 6
    ⟨"retired", [(3, "owner-c")], ⟨[], [⟨3, none, none, none⟩]⟩⟩ 2) :: reportOnce 1 51 7

theorem cutoverReadiness_stays_reimported :
    ∃ later, legacyCutoverReadiness "retired" (runFrom (ShadowWorld.step sampleContracts) .empty
        (reviewedSource ++ reimportedSource)).catalog.tables =
      .ok (later, reportDigest sampleContracts ⟨"retired", {}, true⟩) := by
  have hready : legacyCutoverReadiness "retired"
      (runFrom (ShadowWorld.step sampleContracts) .empty reviewedSource).catalog.tables =
        .ok (50, reportDigest sampleContracts ⟨"retired", {}, true⟩) := by
    decide +kernel
  exact (cutoverReadiness_stays sampleContracts reviewedSource reimportedSource "retired" 50 _ hready).2

end GithubCatalog
