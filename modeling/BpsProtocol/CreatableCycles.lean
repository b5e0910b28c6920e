import BpsProtocol.ArtifactReproducibility
import BpsProtocol.CycleTerms
import BpsProtocol.WeightBySecond

/-! Which published configurations can be created on chain.
The fixture's cycle may open and close its window in one second or later than a `uint64` holds,
and neither engine refuses the zero address; a pool may be too small to give anybody a unit of
it, or larger than a word.  Everything else that the manager asks for follows from the run. -/
namespace BpsProtocol
namespace CycleTerms

open Checked ClaimManager HexText LeafEncoding MerkleProof Merkle Shared CycleFixture Twab
  Allocation Artifacts ProofOfDistribution
open SnapshotPipeline (SnapshotRequest SnapshotRunResult ChainReader runSnapshotPipeline)

variable {keccak256 : Hash}

/-- No byte string is known whose hash is the zero word. -/
def NeverZero (keccak256 : Hash) : Prop := ∀ bytes, keccak256 bytes ≠ 0

theorem processProof_ne_zero (hzero : NeverZero keccak256) {leaf : Bytes32} (hleaf : leaf ≠ 0)
    (proof : List Bytes32) : LeafEncoding.viemProcessProof keccak256 leaf proof ≠ 0 := by
  induction proof generalizing leaf with
  | nil => exact hleaf
  | cons sibling proof ih => exact ih (hzero _)

theorem leafHash_ne_zero (hzero : NeverZero keccak256) {f : LeafFields} {leaf : Bytes32}
    (h : viemLeafHashRaw keccak256 f = some leaf) : leaf ≠ 0 := by
  obtain ⟨l,-,rfl⟩ := viemLeafHashRaw_eq_some h
  exact hzero _

/-- A root that a proof was verified against is a hash. -/
theorem root_ne_zero (hzero : NeverZero keccak256) {f : LeafFields} {proof : List Bytes32}
    {root : Bytes32} (h : LeafEncoding.viemVerifyRaw keccak256 f proof root = some true) :
    root ≠ 0 := by
  simp only [LeafEncoding.viemVerifyRaw,Option.bind_eq_bind,Option.bind_eq_some_iff] at h
  obtain ⟨leaf,hleaf,hroot⟩ := h
  have hfold : LeafEncoding.viemProcessProof keccak256 leaf proof = root := by
    simpa using hroot
  rw [← hfold]
  exact processProof_ne_zero hzero (leafHash_ne_zero hzero hleaf) proof

/-! ## The fixture's cycle -/

/-- The terms of a result with a tree: the manifest's, and what its reconciliation asks to be
funded. -/
def podTerms (keccak256 : Hash) (r : PipelineResult) : Option Terms :=
  r.merkle.map fun m => {
    cycleId := r.fixture.cycle.cycleId
    merkleRoot := m.root
    allocationsContentHash :=
      keccak256 (stringToBytes (canonicalStringify r.artifacts.allocations.object))
    manifestEnvelopeHash := keccak256 (stringToBytes (canonicalStringify (.obj
      (manifestBody r.fixture r.eligibility r.allocation r.merkle
        (keccakOfCanonical keccak256 r.artifacts.allocations.object)))))
    claimStart := r.fixture.cycle.claimStart
    claimDeadline := r.fixture.cycle.claimDeadline
    funding := r.reconciliation.assets.map fun a => (a.assetAddress,a.fundedRequired) }

/-- The floored shares of an asset's pool that the eligible wallets are due, added up. -/
def dueOf (f : Fixture) (asset : AcquiredAsset) : ℤ :=
  (computeWeights f.cycle f.epochStartBalances f.transfers f.locks).toOption.elim 0 fun computed =>
    let weights := weightMap computed.weights
    let eligibility := resolveEligibility f.cycle f.excludedAddresses f.eligibility weights
    ((received (poolOf asset.acquiredRawAmount) weights eligibility.totalEffectiveWeight
      eligibility.eligibleWallets).map WalletAllocation.amount).sum

/-- The records that are not skipped at the end of the epoch. -/
def eligibleRecords (f : Fixture) : List EligibilityRecord :=
  f.eligibility.filter (isEligible f.cycle (f.excludedAddresses.map ExcludedAddress.address))

noncomputable def totalWeight (f : Fixture) : ℤ :=
  ((eligibleRecords f).map fun e => weightBySecond f e.wallet).sum

/-- What the engine leaves open of a fixture: a window of some length that ends within a
`uint64`, assets that are contracts, and pools that fit into a word and give somebody a unit. -/
structure Fit (slack : ℕ) (f : Fixture) : Prop where
  window : f.cycle.claimStart ≠ f.cycle.claimDeadline
  deadline : f.cycle.claimDeadline < 2^64
  assets : ∀ a ∈ f.assets, a.tokenAddress ≠ ZERO_ADDRESS
  pools : ∀ a ∈ f.assets, poolOf a.acquiredRawAmount < 2^256+slack
  shares : ∀ a ∈ f.assets, ∃ e ∈ eligibleRecords f,
    totalWeight f ≤ poolOf a.acquiredRawAmount*weightBySecond f e.wallet

section Fixture

variable {T : Type} {S : StandardMerkleTree T} {input : RawCycleFixture} {r : PipelineResult}

theorem dueOf_eq (h : ArtifactReproducibility.Ran S keccak256 input r) (asset : AcquiredAsset) :
    dueOf r.fixture asset = ((received (poolOf asset.acquiredRawAmount) (weightMap r.weights)
      r.eligibility.totalEffectiveWeight r.eligibility.eligibleWallets).map
        WalletAllocation.amount).sum := by
  obtain ⟨computed,hcomputed,hweights⟩ := h.weighed
  rw [dueOf,hcomputed,h.resolved,← hweights]
  rfl

/-- Every asset is funded with what its holders are due. -/
theorem funding_eq (h : ArtifactReproducibility.Ran S keccak256 input r) :
    r.reconciliation.assets.map (fun a => (a.assetAddress,a.fundedRequired)) =
      r.fixture.assets.map fun a => (a.tokenAddress,dueOf r.fixture a) := by
  have hreconciled := h.reconciled
  simp only [reconcile,bind_eq_ok,pure_eq_ok] at hreconciled
  obtain ⟨rows,hrows,hreconciliation⟩ := hreconciled
  obtain ⟨allocated,hallocated,hallocation⟩ :=
    ArtifactReproducibility.allocate_eq_ok.1 h.allocated
  rw [hallocation] at hrows
  rw [← hreconciliation]
  have hrow : allocated.map (fun a => (a.asset.tokenAddress,a.allocated)) =
      rows.map fun a => (a.assetAddress,a.fundedRequired) := by
    refine Pairing.map_eq (mapM_eq_ok.1 hrows) fun a row hrow => ?_
    simp only [reconcileAsset,bind_eq_ok,revertIf_eq_ok,exists_const,pure_eq_ok] at hrow
    obtain ⟨-,rfl⟩ := hrow
    rfl
  have hasset : r.fixture.assets.map (fun a => (a.tokenAddress,dueOf r.fixture a)) =
      allocated.map fun a => (a.asset.tokenAddress,a.allocated) := by
    refine Pairing.map_eq (mapM_eq_ok.1 hallocated) fun asset a ha => ?_
    rw [(allocateAsset_eq_ok.1 ha).2,dueOf_eq h]
  exact (hasset.trans hrow).symm

/-- The assets of a loaded fixture are in canonical form. -/
theorem assetText (h : loadCycleFixture input = .ok r.fixture) {a : AcquiredAsset}
    (ha : a ∈ r.fixture.assets) : ∃ token, a.tokenAddress = addressText token := by
  simp only [loadCycleFixture,bind_eq_ok,pure_eq_ok] at h
  obtain ⟨raw,-,_,-,_,-,_,-,_,-,_,-,_,-,assets,hassets,hfixture⟩ := h
  obtain ⟨hrows,-,hbuilt⟩ := normalizeDistinct_eq_ok.1 hassets
  rw [← hfixture] at ha
  change a ∈ assets at ha
  rw [← hbuilt] at ha
  obtain ⟨row,hrow,rfl⟩ := List.mem_map.1 ha
  exact ⟨_,toLowerCase_eq_addressText (if_pos (hrows row hrow).1)⟩

theorem isAddress_addressText (keccak256 : Hash) (a : Address) :
    isAddress keccak256 (addressText a) = true := by
  have hlower : toLowerCase (addressText a) = addressText a :=
    toLowerCase_eq_addressText (addressOf_addressText a)
  simp [isAddress,hlower]

/-- The tree of a result has entries, each of them verified. -/
theorem merkle_verified (h : ArtifactReproducibility.Ran S keccak256 input r) {m : MerkleResult}
    (hm : r.merkle = some m) : Indexed r.allocation.entitlements m ∧ ∀ entry ∈ m.entries,
      viemVerify keccak256 r.fixture.cycle entry.entitlement entry.proof m.root = some true := by
  have hbuilt := h.built
  rw [hm,merkleOf] at hbuilt
  split at hbuilt
  · simp only [bind_eq_ok,pure_eq_ok] at hbuilt
    obtain ⟨m',hm',heq⟩ := hbuilt
    obtain rfl := Option.some.inj heq
    have hverified := h.verified
    rw [hm] at hverified
    exact ⟨buildMerkle_indexed hm',verifyProofs_ok hverified⟩
  · cases hbuilt

/-- The leaf of every entitlement of a published result can be encoded. -/
theorem entitlement_leaf (h : ArtifactReproducibility.Ran S keccak256 input r) {m : MerkleResult}
    (hm : r.merkle = some m) {e : Entitlement} (he : e ∈ r.allocation.entitlements) :
    ∃ l, (leafFields r.fixture.cycle e).leaf = some l := by
  obtain ⟨hindexed,hverified⟩ := merkle_verified h hm
  have hmem : e ∈ m.entries.map MerkleLeafEntry.entitlement := by
    rw [hindexed.entries]
    exact (sortEntitlements_perm _).mem_iff.2 he
  obtain ⟨entry,hentry,rfl⟩ := List.mem_map.1 hmem
  have hverify := hverified entry hentry
  simp only [viemVerify,viemLeafHash,Option.bind_eq_bind,Option.bind_eq_some_iff] at hverify
  obtain ⟨hash,hhash,-⟩ := hverify
  obtain ⟨l,hl,-⟩ := viemLeafHashRaw_eq_some hhash
  exact ⟨l,hl⟩

/-- What a published result leaves of the requirements. -/
theorem podTerms_meets_iff (hzero : NeverZero keccak256)
    (h : ArtifactReproducibility.Ran S keccak256 input r) {t : Terms}
    (ht : podTerms keccak256 r = some t) : t.Meets keccak256 ↔
      r.fixture.cycle.claimStart < r.fixture.cycle.claimDeadline ∧
      r.fixture.cycle.claimDeadline < 2^64 ∧
      (∀ a ∈ r.fixture.assets, a.tokenAddress ≠ ZERO_ADDRESS) ∧
      ∀ a ∈ r.fixture.assets, 0 < dueOf r.fixture a ∧ dueOf r.fixture a < 2^256 := by
  obtain ⟨m,hm,rfl⟩ := Option.map_eq_some_iff.1 ht
  rw [funding_eq h]
  obtain ⟨hindexed,hverified⟩ := merkle_verified h hm
  obtain ⟨entry,hentry⟩ := List.exists_mem_of_ne_nil _ hindexed.nonempty
  constructor
  · intro hmeets
    refine ⟨hmeets.window,hmeets.deadline,fun a ha hzeroAddress => ?_,fun a ha => ?_⟩
    · refine (hmeets.assets _ (List.mem_map_of_mem ha)).2 ?_
      rw [hzeroAddress]
      exact addressOf_addressText 0
    · exact hmeets.amounts _ (List.mem_map_of_mem ha)
  · rintro ⟨hwindow,hdeadline,hassets,hdue⟩
    have hmem : entry.entitlement ∈ r.allocation.entitlements := by
      rw [← (sortEntitlements_perm _).mem_iff,← hindexed.entries]
      exact List.mem_map_of_mem hentry
    obtain ⟨l,hl⟩ := entitlement_leaf h hm hmem
    have hcycle : r.fixture.cycle.cycleId = (l.cycleId.val : ℤ) := (leaf_eq_some.1 hl).2.2.1
    have hlt : (l.cycleId.val : ℤ) < 2^256 := by exact_mod_cast l.cycleId.isLt
    obtain ⟨asset,hasset,-⟩ := ArtifactReproducibility.entitlement_of_allocate h.allocated hmem
    refine
      { cycleId := ⟨by dsimp only; omega,by dsimp only; omega⟩
        merkleRoot := root_ne_zero hzero (hverified entry hentry)
        allocationsContentHash := hzero _
        manifestEnvelopeHash := hzero _
        window := hwindow
        deadline := hdeadline
        nonempty := List.ne_nil_of_mem (List.mem_map_of_mem hasset)
        assets := fun x hx => ?_
        amounts := fun x hx => ?_
        distinct := ?_ }
    · obtain ⟨a,ha,rfl⟩ := List.mem_map.1 hx
      obtain ⟨token,htoken⟩ := assetText h.loaded ha
      have hne := hassets a ha
      dsimp only
      rw [htoken] at hne ⊢
      refine ⟨isAddress_addressText keccak256 token,fun heq => hne ?_⟩
      rw [addressOf_addressText] at heq
      rw [Option.some.inj heq,ZERO_ADDRESS]
    · obtain ⟨a,ha,rfl⟩ := List.mem_map.1 hx
      exact hdue a ha
    · have hnodup := (loadCycleFixture_distinct h.loaded).2.1
      have hmap : (r.fixture.assets.map fun a => (a.tokenAddress,dueOf r.fixture a)).map
          (fun x => addressOf x.1) =
          (r.fixture.assets.map AcquiredAsset.tokenAddress).map addressOf := by
        rw [List.map_map,List.map_map]
        rfl
      rw [hmap]
      refine List.Nodup.map_on (fun x hx y hy hxy => ?_) hnodup
      obtain ⟨a,ha,rfl⟩ := List.mem_map.1 hx
      obtain ⟨b,hb,rfl⟩ := List.mem_map.1 hy
      obtain ⟨token,htoken⟩ := assetText h.loaded ha
      obtain ⟨token',htoken'⟩ := assetText h.loaded hb
      rw [htoken,htoken',addressOf_addressText,addressOf_addressText] at hxy
      rw [htoken,htoken',Option.some.inj hxy]

theorem loaded_window (h : loadCycleFixture input = .ok r.fixture) :
    r.fixture.cycle.claimStart ≤ r.fixture.cycle.claimDeadline := by
  simp only [loadCycleFixture,bind_eq_ok,pure_eq_ok] at h
  obtain ⟨raw,-,cycle,hcycle,_,-,_,-,_,-,_,-,_,-,_,-,hfixture⟩ := h
  simp only [normalizeCycle,bind_eq_ok,revertIf_eq_ok,exists_const,pure_eq_ok,not_lt] at hcycle
  obtain ⟨_,-,_,-,-,-,-,-,-,-,hwindow,rfl⟩ := hcycle
  rw [← hfixture]
  exact hwindow

theorem loaded_pool (h : loadCycleFixture input = .ok r.fixture) {a : AcquiredAsset}
    (ha : a ∈ r.fixture.assets) : 0 ≤ poolOf a.acquiredRawAmount := by
  simp only [loadCycleFixture,bind_eq_ok,pure_eq_ok] at h
  obtain ⟨raw,-,_,-,_,-,_,-,_,-,_,-,_,-,assets,hassets,hfixture⟩ := h
  rw [← hfixture] at ha
  obtain ⟨row,-,key,rfl⟩ := mem_of_normalizeDistinct hassets ha
  exact Int.tdiv_nonneg (mul_nonneg (bigInt_nonneg _) (by decide)) (by decide)

/-- The weights of the eligible wallets, as the run reads them. -/
theorem eligible_weights (h : ArtifactReproducibility.Ran S keccak256 input r) :
    (r.eligibility.eligibleWallets.map (effectiveWeight (weightMap r.weights))).Perm
        ((eligibleRecords r.fixture).map fun e => weightBySecond r.fixture e.wallet) ∧
      r.eligibility.totalEffectiveWeight = totalWeight r.fixture := by
  obtain ⟨computed,hcomputed,hweights⟩ := h.weighed
  have hsame : effectiveWeight (weightMap r.weights) = weightBySecond r.fixture :=
    funext fun w => hweights ▸ effectiveWeight_bySecond (loadCycleFixture_ok h.loaded) hcomputed w
  have hperm : (r.eligibility.eligibleWallets.map (effectiveWeight (weightMap r.weights))).Perm
      ((eligibleRecords r.fixture).map fun e => weightBySecond r.fixture e.wallet) := by
    rw [hsame,h.resolved]
    refine ((sortWallets_perm _).map _).trans ?_
    rw [List.map_map]
    exact List.Perm.refl _
  refine ⟨hperm,?_⟩
  rw [totalWeight,← hperm.sum_eq,h.resolved]
  rfl

theorem totalWeight_pos (h : ArtifactReproducibility.Ran S keccak256 input r)
    (hpub : r.allocation.publishable = true) : 0 < totalWeight r.fixture := by
  obtain ⟨computed,hcomputed,-⟩ := h.weighed
  obtain ⟨allocated,-,hallocation⟩ := ArtifactReproducibility.allocate_eq_ok.1 h.allocated
  rw [hallocation,(eligible_weights h).2] at hpub
  have hnonneg : 0 ≤ totalWeight r.fixture := List.sum_nonneg fun n hn => by
    obtain ⟨e,-,rfl⟩ := List.mem_map.1 hn
    exact weightBySecond_nonneg (loadCycleFixture_ok h.loaded) hcomputed e.wallet
  refine lt_of_le_of_ne hnonneg fun hzero => ?_
  simp [nonPublishableReason,← hzero] at hpub

/-- What an asset's holders are due: something where one of them is due a unit, and the pool
but for less than a unit each. -/
theorem dueOf_bounds (h : ArtifactReproducibility.Ran S keccak256 input r)
    (hpub : r.allocation.publishable = true) {a : AcquiredAsset} (ha : a ∈ r.fixture.assets) :
    (0 < dueOf r.fixture a ↔ ∃ e ∈ eligibleRecords r.fixture,
      totalWeight r.fixture ≤ poolOf a.acquiredRawAmount*weightBySecond r.fixture e.wallet) ∧
    dueOf r.fixture a ≤ poolOf a.acquiredRawAmount ∧
    poolOf a.acquiredRawAmount < dueOf r.fixture a+(eligibleRecords r.fixture).length := by
  have hpool := loaded_pool h.loaded ha
  have htotal := totalWeight_pos h hpub
  obtain ⟨computed,hcomputed,-⟩ := h.weighed
  obtain ⟨hperm,htotalEq⟩ := eligible_weights h
  have hnonneg : ∀ n ∈ (eligibleRecords r.fixture).map fun e => weightBySecond r.fixture e.wallet,
      0 ≤ n := by
    intro n hn
    obtain ⟨e,-,rfl⟩ := List.mem_map.1 hn
    exact weightBySecond_nonneg (loadCycleFixture_ok h.loaded) hcomputed e.wallet
  have hdue : dueOf r.fixture a = (((eligibleRecords r.fixture).map fun e =>
      weightBySecond r.fixture e.wallet).map (FloorShares.share (poolOf a.acquiredRawAmount)
        (totalWeight r.fixture))).sum := by
    rw [dueOf_eq h,htotalEq,received,if_pos htotal,sum_allotments hpool htotal,
      ← (hperm.map _).sum_eq]
    exact sum_positive_shares fun w hw =>
      hnonneg _ (hperm.mem_iff.1 (List.mem_map_of_mem hw))
  rw [hdue]
  refine ⟨?_,FloorShares.sum_shares_le hpool htotal le_rfl,?_⟩
  · rw [FloorShares.sum_shares_pos_iff hpool htotal hnonneg]
    simp only [List.mem_map,exists_exists_and_eq_and]
  · have hlt := FloorShares.pool_lt_sum_shares hpool htotal (le_refl (totalWeight r.fixture))
    rwa [List.length_map] at hlt

/-- A fit fixture meets the requirements, and one that meets them is fit up to the units that
are lost in rounding. -/
theorem podTerms_meets (hzero : NeverZero keccak256)
    (h : ArtifactReproducibility.Ran S keccak256 input r)
    (hpub : r.allocation.publishable = true) {t : Terms} (ht : podTerms keccak256 r = some t) :
    (Fit 0 r.fixture → t.Meets keccak256) ∧
      (t.Meets keccak256 → Fit (eligibleRecords r.fixture).length r.fixture) := by
  rw [podTerms_meets_iff hzero h ht]
  have hle := loaded_window h.loaded
  constructor
  · intro hfit
    refine ⟨lt_of_le_of_ne hle hfit.window,hfit.deadline,hfit.assets,fun a ha => ?_⟩
    obtain ⟨hpos,hdue,-⟩ := dueOf_bounds h hpub ha
    have hpool := hfit.pools a ha
    exact ⟨hpos.2 (hfit.shares a ha),by omega⟩
  · rintro ⟨hwindow,hdeadline,hassets,hdue⟩
    refine ⟨hwindow.ne,hdeadline,hassets,fun a ha => ?_,fun a ha => ?_⟩
    · obtain ⟨-,-,hpool⟩ := dueOf_bounds h hpub ha
      have hword := (hdue a ha).2
      omega
    · exact (dueOf_bounds h hpub ha).1.1 (hdue a ha).1

end Fixture

/-! ## The snapshot's cycle -/

/-- The terms that a snapshot of a request publishes. -/
def snapshotTerms (req : SnapshotRequest) (result : SnapshotRunResult) : Terms where
  cycleId := req.cycleId
  merkleRoot := result.snapshot.merkleRoot
  allocationsContentHash := result.canonicalSnapshotDigest
  manifestEnvelopeHash := result.proofBundleDigest
  claimStart := req.claimStart
  claimDeadline := req.claimDeadline
  funding := [(toLowerCase req.distributionAsset,req.distributionAmount)]

section Snapshot

variable {T : Type} {S : StandardMerkleTree T}
  {keccakOfCanonical : SnapshotPipeline.Artifact → Bytes32} {reader : ChainReader}
  {req : SnapshotRequest} {result : SnapshotRunResult}

/-- The pipeline encodes its publication from the terms. -/
theorem encodePublishCycle_eq (asset : Text) (root allocations manifest : Bytes32) :
    SnapshotPipeline.encodePublishCycle keccak256 req asset root allocations manifest =
      Terms.encode keccak256 {
        cycleId := req.cycleId
        merkleRoot := root
        allocationsContentHash := allocations
        manifestEnvelopeHash := manifest
        claimStart := req.claimStart
        claimDeadline := req.claimDeadline
        funding := [(asset,req.distributionAmount)] } := by
  simp [SnapshotPipeline.encodePublishCycle,Terms.encode,encodeFunding,Option.bind_assoc]

/-- The root of a settlement was verified against the proof of an entitlement. -/
theorem settle_root {manager asset : Text} {ts : ℤ} {candidates : List Text}
    {settlement : SnapshotPipeline.Settlement}
    (h : SnapshotPipeline.settle S keccak256 reader req manager asset ts candidates =
      .ok settlement) : ∃ fields proof,
        LeafEncoding.viemVerifyRaw keccak256 fields proof settlement.root = some true := by
  simp only [SnapshotPipeline.settle,bind_eq_ok,orRevert_eq_ok,revertIf_eq_ok,mapM_eq_ok,
    exists_const,pure_eq_ok] at h
  obtain ⟨_,-,-,entitled,-,hne,-,tree,-,withProofs,hproved,-,-,rfl⟩ := h
  cases entitled with
  | nil => exact absurd rfl hne
  | cons e rest =>
    cases hproved with
    | cons hp _ =>
      simp only [SnapshotPipeline.prove,bind_eq_ok,orRevert_eq_ok,revertIf_eq_ok,
        exists_const] at hp
      obtain ⟨_,-,proof,-,verified,hverified,htrue,-⟩ := hp
      cases verified with
      | true => exact ⟨_,proof,hverified⟩
      | false => exact absurd rfl htrue

/-- What a run of the pipeline leaves of its request. -/
structure Run (keccak256 : Hash) (keccakOfCanonical : SnapshotPipeline.Artifact → Bytes32)
    (req : SnapshotRequest) (result : SnapshotRunResult) : Prop where
  window : req.claimStart < req.claimDeadline
  amount : 0 < req.distributionAmount
  asset : ∃ token, addressOf req.distributionAsset = some token
  encoded : (snapshotTerms req result).encode keccak256 =
    some result.unsignedPublication.arguments
  root : ∃ fields proof,
    LeafEncoding.viemVerifyRaw keccak256 fields proof result.snapshot.merkleRoot = some true
  snapshotDigest : ∃ artifact, result.canonicalSnapshotDigest = keccakOfCanonical artifact
  bundleDigest : ∃ artifact, result.proofBundleDigest = keccakOfCanonical artifact

theorem snapshot_run
    (h : runSnapshotPipeline S keccak256 keccakOfCanonical reader req = .ok result) :
    Run keccak256 keccakOfCanonical req result := by
  simp only [runSnapshotPipeline,bind_eq_ok,orRevert_eq_ok] at h
  obtain ⟨_,hshape,_,-,_,-,asset,hasset,⟨header,synced⟩,-,records,-,_,-,enumeration,-,settlement,
    hsettle,digests,-,hassemble⟩ := h
  obtain ⟨token,htoken,rfl⟩ := SnapshotPipeline.normalize_eq_ok.1 hasset
  simp only [SnapshotPipeline.validateRequestShape,bind_eq_ok,revertIf_eq_ok,exists_const] at hshape
  obtain ⟨-,-,hamount,-,-,_,-,_,-,_,-,-,hwindow⟩ := hshape
  simp only [SnapshotPipeline.assemble,bind_eq_ok,orRevert_eq_ok,pure_eq_ok] at hassemble
  obtain ⟨_,-,_,-,_,-,arguments,hencode,rfl⟩ := hassemble
  rw [encodePublishCycle_eq] at hencode
  refine ⟨by omega,by omega,⟨token,htoken⟩,?_,settle_root hsettle,⟨_,rfl⟩,⟨_,rfl⟩⟩
  rw [snapshotTerms,toLowerCase_eq_addressText htoken]
  exact hencode

theorem snapshotTerms_meets_iff (hzero : NeverZero keccak256)
    (hcanonical : ∀ artifact, keccakOfCanonical artifact ≠ 0)
    (h : Run keccak256 keccakOfCanonical req result) :
    (snapshotTerms req result).Meets keccak256 ↔ addressOf req.distributionAsset ≠ some 0 := by
  obtain ⟨token,htoken⟩ := h.asset
  have hlower : toLowerCase req.distributionAsset = addressText token :=
    toLowerCase_eq_addressText htoken
  obtain ⟨fields,proof,hroot⟩ := h.root
  obtain ⟨_,hdigest⟩ := h.snapshotDigest
  obtain ⟨_,hbundle⟩ := h.bundleDigest
  obtain ⟨pairs,hencoded⟩ := Terms.encode_eq_some.1 h.encoded
  have hcycle : req.cycleId = _ := uint256_eq_some.1 hencoded.cycleId
  have hlt := result.unsignedPublication.arguments.cycleId.isLt
  obtain ⟨hdeadline,hbound⟩ := uintArgument_eq_some.1 hencoded.claimDeadline
  have hdeadline : req.claimDeadline = _ := hdeadline
  have hamount : req.distributionAmount < 2^256 := by
    have hfunding := hencoded.funding
    cases hfunding with
    | cons hx _ =>
      obtain ⟨hx,hlt⟩ := uintArgument_eq_some.1 hx.amount
      have hx : req.distributionAmount = _ := hx
      rw [hx]
      exact_mod_cast hlt
  rw [htoken]
  constructor
  · intro hmeets hzeroAddress
    refine (hmeets.assets _ List.mem_cons_self).2 ?_
    rw [hlower,addressOf_addressText]
    exact hzeroAddress
  · intro hne
    refine
      { cycleId := ?_
        merkleRoot := root_ne_zero hzero hroot
        allocationsContentHash := ne_of_eq_of_ne hdigest (hcanonical _)
        manifestEnvelopeHash := ne_of_eq_of_ne hbundle (hcanonical _)
        window := h.window
        deadline := ?_
        nonempty := List.cons_ne_nil _ _
        assets := List.forall_mem_singleton.2 ?_
        amounts := List.forall_mem_singleton.2 ⟨h.amount,hamount⟩
        distinct := List.nodup_singleton _ }
    · change 0 ≤ req.cycleId ∧ req.cycleId < 2^256
      rw [hcycle]
      exact ⟨Int.natCast_nonneg _,by exact_mod_cast hlt⟩
    · change req.claimDeadline < 2^64
      rw [hdeadline]
      exact_mod_cast hbound
    · rw [hlower,addressOf_addressText]
      exact ⟨isAddress_addressText keccak256 token,hne⟩

/-- The leaf of every entitlement of a snapshot can be encoded. -/
theorem participant_leaf
    (h : runSnapshotPipeline S keccak256 keccakOfCanonical reader req = .ok result)
    {p : SnapshotPipeline.ParticipantEntitlement} (hp : p ∈ result.proofBundle.participants) :
    ∃ fields l, fields.wallet = p.address ∧ toString10 fields.amount = p.entitlement ∧
      fields.cycleId = req.cycleId ∧ LeafFields.leaf fields = some l := by
  obtain ⟨manager,asset,header,records,enumeration,s,hran⟩ :=
    SnapshotPipeline.runSnapshotPipeline_ok h
  rw [hran.assembled.bundle] at hp
  obtain ⟨e,-,he⟩ := Pairing.exists_left hran.settled.proved hp
  obtain ⟨l,hl,-⟩ := he.verified
  exact ⟨_,l,he.address.symm,he.entitlement.symm,rfl,hl⟩

end Snapshot

/-! ## The two engines -/

/-- Whatever an engine publishes can be encoded, and in a ready world its cycle can be created
where the inputs are what the engine leaves unchecked.  Only a pool within a unit for each
eligible record of a word may be created otherwise. -/
theorem published_cycles_creatable_iff {T : Type} (S : StandardMerkleTree T)
    (keccakOfCanonical : SnapshotPipeline.Artifact → Bytes32) (hzero : NeverZero keccak256)
    (hcanonical : ∀ artifact, keccakOfCanonical artifact ≠ 0) :
    (∀ input r, runProofOfDistribution S keccak256 input = .ok r →
      r.allocation.publishable = true → ∃ t, podTerms keccak256 r = some t ∧
        (∀ e ∈ r.allocation.entitlements, ∃ l, (leafFields r.fixture.cycle e).leaf = some l) ∧
        ∀ d w sender, Ready d w sender t →
          (Fit 0 r.fixture → t.Creatable keccak256 d w sender) ∧
          (t.Creatable keccak256 d w sender →
            Fit (eligibleRecords r.fixture).length r.fixture)) ∧
    ∀ reader req result,
      runSnapshotPipeline S keccak256 keccakOfCanonical reader req = .ok result →
        (∀ p ∈ result.proofBundle.participants, ∃ fields l, fields.wallet = p.address ∧
          toString10 fields.amount = p.entitlement ∧ fields.cycleId = req.cycleId ∧
          LeafFields.leaf fields = some l) ∧
        ∀ d w sender, Ready d w sender (snapshotTerms req result) →
          ((∃ w', publishCycle d w sender result.unsignedPublication.arguments = .ok w') ↔
            addressOf req.distributionAsset ≠ some 0) := by
  constructor
  · intro input r hrun hpub
    have hran := ArtifactReproducibility.runProofOfDistribution_eq_ok.1 hrun
    obtain ⟨m,hm⟩ : ∃ m, r.merkle = some m := by
      have hbuilt := hran.built
      rw [merkleOf,if_pos hpub] at hbuilt
      simp only [bind_eq_ok,pure_eq_ok] at hbuilt
      obtain ⟨m,-,hm⟩ := hbuilt
      exact ⟨m,hm.symm⟩
    obtain ⟨t,ht⟩ : ∃ t, podTerms keccak256 r = some t := by
      rw [podTerms,hm]
      exact ⟨_,rfl⟩
    obtain ⟨hfit,hmeets⟩ := podTerms_meets hzero hran hpub ht
    exact ⟨t,ht,fun e he => entitlement_leaf hran hm he,fun d w sender hready =>
      ⟨fun h => hready.creatable_iff.2 (hfit h),fun h => hmeets (hready.creatable_iff.1 h)⟩⟩
  · intro reader req result hrun
    have hran := snapshot_run hrun
    refine ⟨fun p hp => participant_leaf hrun hp,fun d w sender hready => ?_⟩
    rw [← snapshotTerms_meets_iff hzero hcanonical hran,← hready.creatable_iff]
    constructor
    · rintro ⟨w',hw'⟩
      exact ⟨_,w',hran.encoded,hw'⟩
    · rintro ⟨p,w',hp,hw'⟩
      rw [hran.encoded] at hp
      exact ⟨w',Option.some.inj hp ▸ hw'⟩

/-! The sample fixture, and the same with a window of no length. -/

def nonzeroHash : Hash := fun bytes => if toyHash bytes = 0 then 1 else toyHash bytes

theorem nonzeroHash_neverZero : NeverZero nonzeroHash := by
  intro bytes
  unfold nonzeroHash
  split
  · decide
  · assumption

/-- The owner holds and has approved a thousand units of the sample's asset. -/
def fundedWorld : World :=
  Machine.run (exec sample) ⟨0,fun _ => Erc20.Token.empty,.deployed 9⟩
    [.token 50 (.mint 2 9 1000),.token 50 (.approve 9 100 1000)]

theorem fundedWorld_ready {t : Terms} (hstart : t.claimStart = 2000)
    (hfunding : t.funding = [(addressText 50,799)]) : Ready sample fundedWorld 9 t where
  reachable := (Machine.Reachable.of_init
    ⟨by decide,by decide,⟨9,rfl⟩,fun _ _ => rfl,fun _ => rfl⟩).run _
  owner := by decide +kernel
  sender_ne_zero := by decide
  sender_ne_here := by decide
  unpublished := fun _ _ => rfl
  early := by
    rw [hstart]
    decide
  funded := by
    rw [hfunding,List.forall_mem_singleton]
    intro a n ha hn
    obtain rfl := Option.some.inj ((addressOf_addressText 50).symm.trans ha)
    obtain ⟨heq,-⟩ := uintArgument_eq_some.1 hn
    have hn : n = 799 := by omega
    rw [hn]
    decide +kernel

def zeroLengthWindow : RawCycleFixture :=
  { ArtifactTampering.publishedInput with
    cycle := { ArtifactTampering.publishedInput.cycle with claimDeadline := "2000".toList } }

/-- A result that can be published, with its window and the one asset to fund. -/
structure RunsUntil (deadline : ℤ) (r : PipelineResult) : Prop where
  publishable : r.allocation.publishable = true
  claimStart : r.fixture.cycle.claimStart = 2000
  claimDeadline : r.fixture.cycle.claimDeadline = deadline
  funding : r.reconciliation.assets.map (fun a => (a.assetAddress,a.fundedRequired)) =
    [(addressText 50,799)]
  pools : ∀ a ∈ r.fixture.assets, poolOf a.acquiredRawAmount < 2^256

def runsUntil (deadline : ℤ) (r : PipelineResult) : Bool :=
  r.allocation.publishable && decide (r.fixture.cycle.claimStart = 2000) &&
    decide (r.fixture.cycle.claimDeadline = deadline) &&
    decide (r.reconciliation.assets.map (fun a => (a.assetAddress,a.fundedRequired)) =
      [(addressText 50,799)]) &&
    decide (∀ a ∈ r.fixture.assets, poolOf a.acquiredRawAmount < 2^256)

theorem exists_run {input : RawCycleFixture} {deadline : ℤ}
    (h : (runProofOfDistribution (chainTrees nonzeroHash) nonzeroHash input).toOption.elim false
      (runsUntil deadline) = true) :
    ∃ r, runProofOfDistribution (chainTrees nonzeroHash) nonzeroHash input = .ok r ∧
      RunsUntil deadline r := by
  rcases hr : runProofOfDistribution (chainTrees nonzeroHash) nonzeroHash input with e | r
  · rw [hr] at h
    cases h
  · rw [hr] at h
    change runsUntil deadline r = true at h
    simp only [runsUntil,Bool.and_eq_true,decide_eq_true_eq] at h
    exact ⟨r,rfl,h.1.1.1.1,h.1.1.1.2,h.1.1.2,h.1.2,h.2⟩

theorem RunsUntil.ready {deadline : ℤ} {r : PipelineResult} (h : RunsUntil deadline r) {t : Terms}
    (ht : podTerms nonzeroHash r = some t) : Ready sample fundedWorld 9 t := by
  obtain ⟨m,-,rfl⟩ := Option.map_eq_some_iff.1 ht
  exact fundedWorld_ready h.claimStart h.funding

theorem RunsUntil.fit {deadline : ℤ} {input : RawCycleFixture} {r : PipelineResult}
    (h : RunsUntil deadline r)
    (hran : ArtifactReproducibility.Ran (chainTrees nonzeroHash) nonzeroHash input r)
    (hwindow : 2000 ≠ deadline) (hdeadline : deadline < 2^64) : Fit 0 r.fixture := by
  have hfunding : r.fixture.assets.map (fun a => (a.tokenAddress,dueOf r.fixture a)) =
      [(addressText 50,799)] := (funding_eq hran).symm.trans h.funding
  have hasset : ∀ a ∈ r.fixture.assets,
      a.tokenAddress = addressText 50 ∧ dueOf r.fixture a = 799 := by
    intro a ha
    have hmem : (a.tokenAddress,dueOf r.fixture a) ∈ [(addressText 50,(799 : ℤ))] := by
      rw [← hfunding]
      exact List.mem_map_of_mem ha
    exact Prod.mk.inj (List.mem_singleton.1 hmem)
  refine ⟨?_,?_,fun a ha => ?_,fun a ha => ?_,fun a ha => ?_⟩
  · rw [h.claimStart,h.claimDeadline]
    exact hwindow
  · rw [h.claimDeadline]
    exact hdeadline
  · rw [(hasset a ha).1]
    intro heq
    exact absurd (addressText_injective heq) (by decide)
  · exact lt_of_lt_of_eq (h.pools a ha) (by norm_num)
  · refine (dueOf_bounds hran h.publishable ha).1.1 ?_
    rw [(hasset a ha).2]
    norm_num

theorem publishedInput_creatable : ∃ r t,
    runProofOfDistribution (chainTrees nonzeroHash) nonzeroHash ArtifactTampering.publishedInput =
      .ok r ∧ podTerms nonzeroHash r = some t ∧
    t.Creatable nonzeroHash sample fundedWorld 9 := by
  obtain ⟨r,hr,h⟩ : ∃ r, runProofOfDistribution (chainTrees nonzeroHash) nonzeroHash
      ArtifactTampering.publishedInput = .ok r ∧ RunsUntil 3000 r :=
    exists_run (by decide +kernel)
  obtain ⟨t,ht,-,hiff⟩ := (published_cycles_creatable_iff (chainTrees nonzeroHash)
    (fun _ => 1) nonzeroHash_neverZero fun _ => by decide).1 _ r hr
      h.publishable
  exact ⟨r,t,hr,ht,(hiff _ _ _ (h.ready ht)).1 (h.fit
    (ArtifactReproducibility.runProofOfDistribution_eq_ok.1 hr) (by decide) (by decide))⟩

/-- The fixture is published, and its owner cannot create the cycle. -/
theorem zeroLengthWindow_not_creatable : ∃ r t,
    runProofOfDistribution (chainTrees nonzeroHash) nonzeroHash zeroLengthWindow = .ok r ∧
    r.allocation.publishable = true ∧ podTerms nonzeroHash r = some t ∧
    Ready sample fundedWorld 9 t ∧ ¬t.Creatable nonzeroHash sample fundedWorld 9 := by
  obtain ⟨r,hr,h⟩ : ∃ r, runProofOfDistribution (chainTrees nonzeroHash) nonzeroHash
      zeroLengthWindow = .ok r ∧ RunsUntil 2000 r := exists_run (by decide +kernel)
  have hran := ArtifactReproducibility.runProofOfDistribution_eq_ok.1 hr
  have hbuilt := hran.built
  rw [merkleOf,if_pos h.publishable] at hbuilt
  simp only [bind_eq_ok,pure_eq_ok] at hbuilt
  obtain ⟨m,-,hm⟩ := hbuilt
  obtain ⟨t,ht⟩ : ∃ t, podTerms nonzeroHash r = some t := by
    rw [podTerms,← hm]
    exact ⟨_,rfl⟩
  refine ⟨r,t,hr,h.publishable,ht,h.ready ht,fun hcreatable => ?_⟩
  obtain ⟨hwindow,-⟩ := (podTerms_meets_iff nonzeroHash_neverZero hran ht).1
    ((h.ready ht).creatable_iff.1 hcreatable)
  rw [h.claimStart,h.claimDeadline] at hwindow
  exact lt_irrefl _ hwindow

end CycleTerms
end BpsProtocol
