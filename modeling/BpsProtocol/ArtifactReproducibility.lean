import BpsProtocol.AllocationFairness
import BpsProtocol.ArtifactTampering
import BpsProtocol.Lib.JsonInjective
import BpsProtocol.TwabOrder

/-! Artifacts of a fixture whose lists are in another order.
The tree and the wallet proofs are built from sorted entitlements, and the manifest sorts its
lists.  The allocations and the reconciliation list the assets as the fixture does, so the
artifacts are the same bytes only if the assets are in the same order. -/
namespace BpsProtocol
namespace ArtifactReproducibility

open Checked Mapping Shared HexText CycleFixture Twab LeafEncoding MerkleProof Merkle Allocation
  Artifacts ProofOfDistribution

/-! ## Entitlements -/

section Entitlements

variable {a b c : Entitlement}

theorem compareEntitlements_nonpos : compareEntitlements a b ≤ 0 ↔ a.wallet < b.wallet ∨
    a.wallet = b.wallet ∧ List.le a.asset b.asset := by
  unfold compareEntitlements
  by_cases hwallet : a.wallet = b.wallet
  · by_cases hasset : a.asset = b.asset
    · simp [hwallet,hasset,List.le]
    · by_cases hlt : a.asset < b.asset
      · simp [hwallet,hasset,hlt,List.le,List.lt_asymm hlt]
      · have hgt : ¬List.le a.asset b.asset := fun hle =>
          hasset (List.le_antisymm hle hlt)
        simp [hwallet,hasset,hlt,hgt]
  · by_cases hlt : a.wallet < b.wallet <;> simp [hwallet,hlt]

instance : Std.Total (fun a b : Entitlement => compareEntitlements a b ≤ 0) :=
  ⟨fun a b => by
    simp only [compareEntitlements_nonpos]
    by_cases hwallet : a.wallet = b.wallet
    · have htotal : List.le a.asset b.asset ∨ List.le b.asset a.asset := List.le_total _ _
      exact htotal.imp (fun h => Or.inr ⟨hwallet,h⟩) (fun h => Or.inr ⟨hwallet.symm,h⟩)
    · by_cases hlt : a.wallet < b.wallet
      · exact Or.inl (Or.inl hlt)
      · refine Or.inr (Or.inl ?_)
        by_contra hgt
        exact hwallet (List.le_antisymm hgt hlt)⟩

instance : IsTrans Entitlement (fun a b => compareEntitlements a b ≤ 0) :=
  ⟨fun a b c hab hbc => by
    rw [compareEntitlements_nonpos] at hab hbc ⊢
    rcases hab with hab | ⟨hab,hassets⟩
    · rcases hbc with hbc | ⟨hbc,-⟩
      · exact Or.inl (List.lt_trans hab hbc)
      · exact Or.inl (hbc ▸ hab)
    · rcases hbc with hbc | ⟨hbc,hassets'⟩
      · exact Or.inl (hab ▸ hbc)
      · exact Or.inr ⟨hab.trans hbc,List.le_trans hassets hassets'⟩⟩

/-- Only entitlements of one wallet in one asset are tied. -/
theorem compareEntitlements_tied (hab : compareEntitlements a b ≤ 0)
    (hba : compareEntitlements b a ≤ 0) : a.wallet = b.wallet ∧ a.asset = b.asset := by
  rw [compareEntitlements_nonpos] at hab hba
  rcases hab with hab | ⟨hwallet,hab⟩
  · rcases hba with hba | ⟨hwallet,-⟩
    · exact absurd hba (List.lt_asymm hab)
    · exact absurd hab (hwallet ▸ List.lt_irrefl _)
  · rcases hba with hba | ⟨-,hba⟩
    · exact absurd hba (hwallet ▸ List.lt_irrefl _)
    · exact ⟨hwallet,List.le_antisymm hab hba⟩

variable {T : Type} {S : StandardMerkleTree T} {entitlements entitlements' : List Entitlement}

/-- One entitlement for a wallet and an asset. -/
def OnePerAsset (entitlements : List Entitlement) : Prop :=
  ∀ a ∈ entitlements, ∀ b ∈ entitlements, a.wallet = b.wallet → a.asset = b.asset → a = b

theorem sortEntitlements_eq (h : entitlements.Perm entitlements')
    (hone : OnePerAsset entitlements) :
    sortEntitlements entitlements' = sortEntitlements entitlements :=
  Reorder.insertionSort_eq h fun a ha b hb hab hba =>
    hone a ha b hb (compareEntitlements_tied hab hba).1 (compareEntitlements_tied hab hba).2

/-- The tree is built from the sorted entitlements. -/
theorem buildMerkle_perm (h : entitlements.Perm entitlements') (hone : OnePerAsset entitlements)
    (cycle : CycleConfig) : buildMerkle S cycle entitlements' = buildMerkle S cycle entitlements := by
  unfold buildMerkle
  rw [sortEntitlements_eq h hone,h.length_eq]

end Entitlements

/-! ## Allocation and reconciliation -/

section Allocating

variable {cycle : CycleConfig} {assets assets' : List AcquiredAsset} {wallets : List Text}
  {weights : WeightMap} {totalWeight : ℤ} {a a' : AllocationResult} {r : Reconciliation}

theorem allocate_eq_ok : allocate cycle assets wallets weights totalWeight = .ok a ↔
    ∃ allocated, assets.mapM (fun asset =>
        allocateAsset cycle asset wallets weights totalWeight) = .ok allocated ∧
      a = {
        assets := allocated
        entitlements := allocated.flatMap AssetAllocation.entitlements
        totalEffectiveWeight := totalWeight
        publishable := (nonPublishableReason totalWeight
          (allocated.flatMap AssetAllocation.entitlements)).isNone
        nonPublishableReason := nonPublishableReason totalWeight
          (allocated.flatMap AssetAllocation.entitlements) } := by
  simp only [allocate,bind_eq_ok,pure_eq_ok]
  exact exists_congr fun allocated => and_congr_right fun _ => eq_comm

/-- An allocation lists the assets as they are given. -/
theorem assets_of_allocate (h : allocate cycle assets wallets weights totalWeight = .ok a) :
    a.assets.map AssetAllocation.asset = assets := by
  obtain ⟨allocated,hallocated,rfl⟩ := allocate_eq_ok.1 h
  have hmap : assets.map id = allocated.map AssetAllocation.asset := by
    refine Pairing.map_eq (mapM_eq_ok.1 hallocated) fun asset x hx => ?_
    rw [(allocateAsset_eq_ok.1 hx).2]
    rfl
  rw [← hmap,List.map_id]

/-- What a wallet is entitled to of an asset is its share of the pool. -/
theorem entitlement_of_allocate (h : allocate cycle assets wallets weights totalWeight = .ok a)
    {e : Entitlement} (he : e ∈ a.entitlements) : ∃ asset ∈ assets, e = ⟨cycle.cycleId,e.wallet,
      asset.tokenAddress,FloorShares.share (poolOf asset.acquiredRawAmount) totalWeight
        (effectiveWeight weights e.wallet)⟩ := by
  obtain ⟨allocated,hallocated,rfl⟩ := allocate_eq_ok.1 h
  obtain ⟨x,hx,he⟩ := List.mem_flatMap.1 he
  obtain ⟨asset,hasset,hok⟩ := Pairing.exists_left (mapM_eq_ok.1 hallocated) hx
  rw [(allocateAsset_eq_ok.1 hok).2] at he
  obtain ⟨p,hp,rfl⟩ := List.mem_map.1 he
  refine ⟨asset,hasset,?_⟩
  unfold received at hp
  split at hp
  · rw [entitlementOf,← (mem_allotments.1 hp).2.2.2]
  · exact absurd hp List.not_mem_nil

theorem onePerAsset_of_allocate (h : allocate cycle assets wallets weights totalWeight = .ok a)
    (hdistinct : (assets.map AcquiredAsset.tokenAddress).Nodup) : OnePerAsset a.entitlements := by
  intro e he e' he' hwallet hasset
  obtain ⟨x,hx,heq⟩ := entitlement_of_allocate h he
  obtain ⟨x',hx',heq'⟩ := entitlement_of_allocate h he'
  have hsame : x = x' := by
    rw [heq,heq'] at hasset
    exact List.inj_on_of_nodup_map hdistinct hx hx' hasset
  rw [heq,heq',hwallet,hsame]

/-- The same allocation with its assets in another order. -/
structure SameAllocation (a a' : AllocationResult) : Prop where
  assets : a.assets.Perm a'.assets
  entitlements : a.entitlements.Perm a'.entitlements
  totalEffectiveWeight : a'.totalEffectiveWeight = a.totalEffectiveWeight
  publishable : a'.publishable = a.publishable
  nonPublishableReason : a'.nonPublishableReason = a.nonPublishableReason

theorem nonPublishableReason_perm {entitlements entitlements' : List Entitlement}
    (h : entitlements.Perm entitlements') : nonPublishableReason totalWeight entitlements' =
      nonPublishableReason totalWeight entitlements := by
  unfold nonPublishableReason
  rw [h.length_eq]

theorem allocate_perm (h : assets.Perm assets')
    (hok : allocate cycle assets wallets weights totalWeight = .ok a) :
    ∃ a', allocate cycle assets' wallets weights totalWeight = .ok a' ∧ SameAllocation a a' := by
  obtain ⟨allocated,hallocated,rfl⟩ := allocate_eq_ok.1 hok
  obtain ⟨allocated',hallocated',hperm⟩ := Reorder.mapM_perm h hallocated
  have hentitlements := hperm.flatMap_right AssetAllocation.entitlements
  have hreason : nonPublishableReason totalWeight (allocated'.flatMap _) =
      nonPublishableReason totalWeight (allocated.flatMap _) :=
    nonPublishableReason_perm hentitlements
  exact ⟨_,allocate_eq_ok.2 ⟨allocated',hallocated',rfl⟩,hperm,hentitlements,rfl,
    congrArg Option.isNone hreason,hreason⟩

theorem reconcile_perm (h : SameAllocation a a') (hok : reconcile a = .ok r) :
    ∃ r', reconcile a' = .ok r' ∧ r'.publishable = r.publishable ∧ r.assets.Perm r'.assets := by
  simp only [reconcile,bind_eq_ok,pure_eq_ok] at hok ⊢
  obtain ⟨assets,hassets,rfl⟩ := hok
  obtain ⟨assets',hassets',hperm⟩ := Reorder.mapM_perm h.assets hassets
  exact ⟨_,⟨assets',hassets',rfl⟩,h.publishable,hperm⟩

end Allocating

/-! ## Canonical text -/

section Text

theorem withNewline_injective {v w : Json} (h : withNewline v = withNewline w) :
    Json.canonicalize v = Json.canonicalize w :=
  Json.stringify_injective 0 (List.append_cancel_right h)

variable {cycle cycle' : CycleConfig} {a a' : AllocationResult} {x x' : AssetAllocation}

theorem assetAllocationJson_has (x : AssetAllocation) :
    Json.Has "assetAddress".toList (.str x.asset.tokenAddress) (assetAllocationJson x) := by
  refine ⟨_,rfl,?_,List.mem_cons_self⟩
  change (["assetAddress","ticker","name","decimals","acquired","participantPool",
    "strategicReserve","allocated","distributionDust","entitlementCount","allocations"].map
      String.toList).Nodup
  decide +kernel

theorem buildAllocations_has (cycle : CycleConfig) (a : AllocationResult) :
    Json.Has "assets".toList (.arr (a.assets.map assetAllocationJson))
      (buildAllocations cycle a).object := by
  refine ⟨_,rfl,?_,by simp [field]⟩
  change (["schemaVersion","cycleId","chainId","economicsVersion","rewardPolicyVersion",
    "totalEffectiveWeight","publishable","assets"].map String.toList).Nodup
  decide +kernel

theorem assetAllocationJson_address
    (h : Json.canonicalize (assetAllocationJson x) = Json.canonicalize (assetAllocationJson x')) :
    x.asset.tokenAddress = x'.asset.tokenAddress := by
  have haddress := (assetAllocationJson_has x).canonicalize_eq (assetAllocationJson_has x') h
  rw [Json.canonicalize,Json.canonicalize] at haddress
  exact Json.str.inj haddress

/-- The order of the assets is read off the allocations. -/
theorem buildAllocations_addresses
    (h : (buildAllocations cycle' a').json = (buildAllocations cycle a).json) :
    a'.assets.map (fun x => x.asset.tokenAddress) =
      a.assets.map (fun x => x.asset.tokenAddress) := by
  have hassets := (buildAllocations_has cycle' a').canonicalize_eq (buildAllocations_has cycle a)
    (withNewline_injective h)
  rw [Json.canonicalize,Json.canonicalize] at hassets
  have hitems := Json.arr.inj hassets
  rw [Json.canonicalizeItems_eq,Json.canonicalizeItems_eq,List.map_map,List.map_map] at hitems
  have hpaired : List.Forall₂ (fun x' x => x'.asset.tokenAddress = x.asset.tokenAddress)
      a'.assets a.assets := by
    rw [← List.forall₂_eq_eq_eq,List.forall₂_map_left_iff,List.forall₂_map_right_iff] at hitems
    exact hitems.imp fun _ _ => assetAllocationJson_address
  exact Pairing.map_eq hpaired fun _ _ h => h

end Text

/-! ## Runs -/

section Runs

variable {T : Type} {S : StandardMerkleTree T} {keccak256 : Hash} {input input' : RawCycleFixture}
  {r r' : PipelineResult}

/-- The steps of a run. -/
structure Ran (S : StandardMerkleTree T) (keccak256 : Hash) (input : RawCycleFixture)
    (r : PipelineResult) : Prop where
  loaded : loadCycleFixture input = .ok r.fixture
  weighed : ∃ computed, computeWeights r.fixture.cycle r.fixture.epochStartBalances
    r.fixture.transfers r.fixture.locks = .ok computed ∧ computed.weights = r.weights
  resolved : r.eligibility = resolveEligibility r.fixture.cycle r.fixture.excludedAddresses
    r.fixture.eligibility (weightMap r.weights)
  allocated : allocate r.fixture.cycle r.fixture.assets r.eligibility.eligibleWallets
    (weightMap r.weights) r.eligibility.totalEffectiveWeight = .ok r.allocation
  built : merkleOf S r.fixture r.allocation = .ok r.merkle
  verified : verifyProofs S keccak256 r.fixture r.merkle = .ok r.verification
  reconciled : reconcile r.allocation = .ok r.reconciliation
  artifacts : r.artifacts = artifactsOf keccak256 r.fixture r.eligibility r.allocation r.merkle
    r.reconciliation

theorem runProofOfDistribution_eq_ok :
    runProofOfDistribution S keccak256 input = .ok r ↔ Ran S keccak256 input r := by
  simp only [runProofOfDistribution,bind_eq_ok,pure_eq_ok]
  constructor
  · rintro ⟨fixture,hload,computed,hcomputed,allocation,hallocation,merkle,hmerkle,verification,
      hverification,reconciliation,hreconciliation,rfl⟩
    exact ⟨hload,⟨computed,hcomputed,rfl⟩,rfl,hallocation,hmerkle,hverification,hreconciliation,rfl⟩
  · intro h
    obtain ⟨computed,hcomputed,hweights⟩ := h.weighed
    refine ⟨r.fixture,h.loaded,computed,hcomputed,r.allocation,?_,r.merkle,h.built,r.verification,
      h.verified,r.reconciliation,h.reconciled,?_⟩
    · rw [hweights,← h.resolved]
      exact h.allocated
    · rw [hweights,← h.resolved,← h.artifacts]

theorem canonicalizeTransfers_of_computeWeights {f : Fixture} {computed : WeightComputation}
    (h : computeWeights f.cycle f.epochStartBalances f.transfers f.locks = .ok computed) :
    ∃ deduped, canonicalizeTransfers f.transfers = .ok deduped := by
  simp only [computeWeights,bind_eq_ok] at h
  obtain ⟨deduped,hcanonical,-⟩ := h
  exact ⟨deduped,hcanonical⟩

/-- The weights of a fixture whose lists are in another order. -/
theorem computeWeights_reorder {f f' : Fixture} {computed : WeightComputation}
    (hload : loadCycleFixture input = .ok f) (h : f.Reordered f')
    (hcomputed : computeWeights f.cycle f.epochStartBalances f.transfers f.locks = .ok computed) :
    ∃ computed', computeWeights f'.cycle f'.epochStartBalances f'.transfers f'.locks =
      .ok computed' ∧ weightMap computed'.weights = weightMap computed.weights := by
  obtain ⟨deduped,hcanonical⟩ := canonicalizeTransfers_of_computeWeights hcomputed
  have hmem : ∀ t, t ∈ f'.transfers ↔ t ∈ f.transfers := fun _ => h.transfers.mem_iff.symm
  have houtcome := computeWeights_perm (loadCycleFixture_ok hload)
    (loadCycleFixture_distinct hload).1 hcanonical
    ((canonicalizeTransfers_congr hmem).2 hcanonical) hmem h.epochStartBalances h.locks
  rw [hcomputed] at houtcome
  rw [h.cycle]
  generalize computeWeights f.cycle f'.epochStartBalances f'.transfers f'.locks = outcome
    at houtcome
  cases houtcome with
  | weighed hperm hsame happlied => exact ⟨_,rfl,hsame⟩

/-- A run and a run of the same fixture with its lists in another order. -/
structure Rerun (r r' : PipelineResult) : Prop where
  fixture : r.fixture.Reordered r'.fixture
  weights : weightMap r'.weights = weightMap r.weights
  eligibility : r'.eligibility = { r.eligibility with excluded := r'.eligibility.excluded }
  allocation : SameAllocation r.allocation r'.allocation
  merkle : r'.merkle = r.merkle

theorem Ran.onePerAsset (h : Ran S keccak256 input r) : OnePerAsset r.allocation.entitlements :=
  onePerAsset_of_allocate h.allocated (loadCycleFixture_distinct h.loaded).2.1

/-- A fixture with its lists in another order runs when it did before, to the same tree. -/
theorem Ran.reorder (h : Ran S keccak256 input r) (hinput : input.Reordered input') :
    ∃ r', Ran S keccak256 input' r' ∧ Rerun r r' := by
  obtain ⟨f,hload,hf⟩ := loadCycleFixture_perm hinput h.loaded
  obtain ⟨computed,hcomputed,hweights⟩ := h.weighed
  obtain ⟨computed',hcomputed',hmap⟩ := computeWeights_reorder h.loaded hf hcomputed
  rw [hweights] at hmap
  have hresolved : resolveEligibility f.cycle f.excludedAddresses f.eligibility
      (weightMap computed'.weights) =
        { r.eligibility with excluded := f.excludedAddresses.map ExcludedAddress.address } := by
    rw [hmap,hf.cycle,resolveEligibility_perm hf.excludedAddresses hf.eligibility,h.resolved]
  obtain ⟨allocation,hallocation,hsame⟩ := allocate_perm hf.assets h.allocated
  have hmerkle : merkleOf S f allocation = .ok r.merkle := by
    unfold merkleOf
    rw [hsame.publishable,hf.cycle,buildMerkle_perm hsame.entitlements h.onePerAsset]
    exact h.built
  obtain ⟨reconciliation,hreconciliation,-⟩ := reconcile_perm hsame h.reconciled
  have hverified : verifyProofs S keccak256 f r.merkle = .ok r.verification := by
    have hverify := h.verified
    unfold verifyProofs at hverify ⊢
    rw [hf.cycle]
    exact hverify
  have hallocated : allocate f.cycle f.assets (resolveEligibility f.cycle f.excludedAddresses
      f.eligibility (weightMap computed'.weights)).eligibleWallets (weightMap computed'.weights)
      (resolveEligibility f.cycle f.excludedAddresses f.eligibility
        (weightMap computed'.weights)).totalEffectiveWeight = .ok allocation := by
    rw [hresolved,hmap,hf.cycle]
    exact hallocation
  let r' : PipelineResult := {
    fixture := f
    weights := computed'.weights
    eligibility := resolveEligibility f.cycle f.excludedAddresses f.eligibility
      (weightMap computed'.weights)
    allocation
    merkle := r.merkle
    reconciliation
    verification := r.verification
    artifacts := artifactsOf keccak256 f (resolveEligibility f.cycle f.excludedAddresses
      f.eligibility (weightMap computed'.weights)) allocation r.merkle reconciliation }
  exact ⟨r',⟨hload,⟨computed',hcomputed',rfl⟩,rfl,hallocated,hmerkle,hverified,hreconciliation,rfl⟩,
    ⟨hf,hmap,hresolved,hsame,rfl⟩⟩

end Runs

/-! ## Artifacts -/

section Artifacts

variable {T : Type} {S : StandardMerkleTree T} {keccak256 : Hash} {input input' : RawCycleFixture}
  {r r' : PipelineResult}

/-- The same root, and artifacts of the same bytes. -/
structure Reproduced (keccak256 : Hash) (r r' : PipelineResult) : Prop where
  root : r'.merkle.map MerkleResult.root = r.merkle.map MerkleResult.root
  allocations : r'.artifacts.allocations.json = r.artifacts.allocations.json
  contentHash : keccakOfCanonical keccak256 r'.artifacts.allocations.object =
    keccakOfCanonical keccak256 r.artifacts.allocations.object
  walletProofs : r'.artifacts.walletProofs.json = r.artifacts.walletProofs.json
  reconciliation : r'.artifacts.reconciliation.json = r.artifacts.reconciliation.json
  manifest : r'.artifacts.manifest.json = r.artifacts.manifest.json

theorem Ran.allocations (h : Ran S keccak256 input r) :
    r.artifacts.allocations = buildAllocations r.fixture.cycle r.allocation :=
  congrArg ArtifactSet.allocations h.artifacts

theorem Ran.walletProofs (h : Ran S keccak256 input r) : r.artifacts.walletProofs =
    buildWalletProofs r.fixture.cycle r.merkle r.allocation :=
  congrArg ArtifactSet.walletProofs h.artifacts

theorem Ran.reconciliation (h : Ran S keccak256 input r) : r.artifacts.reconciliation =
    buildReconciliation r.fixture.cycle r.reconciliation r.merkle :=
  congrArg ArtifactSet.reconciliation h.artifacts

theorem Ran.manifest (h : Ran S keccak256 input r) : r.artifacts.manifest =
    buildManifest keccak256 r.fixture r.eligibility r.allocation r.merkle
      (keccakOfCanonical keccak256 r.artifacts.allocations.object) := by
  rw [h.allocations]
  exact congrArg ArtifactSet.manifest h.artifacts

/-- The wallet proofs name the assets of the tree only. -/
theorem Rerun.walletProofs (h : Rerun r r') (hr : Ran S keccak256 input r)
    (hr' : Ran S keccak256 input' r') : r'.artifacts.walletProofs = r.artifacts.walletProofs := by
  rw [hr.walletProofs,hr'.walletProofs,h.merkle,h.fixture.cycle]
  unfold buildWalletProofs
  rw [h.allocation.publishable]

/-- The manifest sorts its lists: it changes with the hash of the allocations only. -/
theorem Rerun.manifestBody (h : Rerun r r') (hr : Ran S keccak256 input r) (contentHash : Text) :
    manifestBody r'.fixture r'.eligibility r'.allocation r'.merkle contentHash =
      manifestBody r.fixture r.eligibility r.allocation r.merkle contentHash := by
  obtain ⟨-,hassets,hexcluded⟩ := loadCycleFixture_distinct hr.loaded
  have hexclusions : sortExclusions r'.fixture.excludedAddresses =
      sortExclusions r.fixture.excludedAddresses :=
    Reorder.sortByText_eq ExcludedAddress.address h.fixture.excludedAddresses
      fun a ha b hb => List.inj_on_of_nodup_map hexcluded ha hb
  have hsorted : sortAssets r'.allocation.assets = sortAssets r.allocation.assets := by
    have hdistinct : (r.allocation.assets.map fun a => a.asset.tokenAddress).Nodup := by
      rw [← assets_of_allocate hr.allocated,List.map_map] at hassets
      exact hassets
    exact Reorder.sortByText_eq (fun a => a.asset.tokenAddress) h.allocation.assets
      fun a ha b hb => List.inj_on_of_nodup_map hdistinct ha hb
  unfold Artifacts.manifestBody
  rw [hexclusions,hsorted,h.fixture.cycle,h.eligibility,h.allocation.publishable,
    h.allocation.nonPublishableReason,h.merkle]

/-- The manifest of the same allocations is the same. -/
theorem Rerun.manifest (h : Rerun r r') (hr : Ran S keccak256 input r)
    (hr' : Ran S keccak256 input' r') (hhash : keccakOfCanonical keccak256
      r'.artifacts.allocations.object = keccakOfCanonical keccak256 r.artifacts.allocations.object) :
    r'.artifacts.manifest = r.artifacts.manifest := by
  rw [hr.manifest,hr'.manifest,hhash]
  unfold buildManifest
  rw [h.manifestBody hr]

theorem Rerun.reproduced (h : Rerun r r') (hr : Ran S keccak256 input r)
    (hr' : Ran S keccak256 input' r') (hassets : input'.assets = input.assets) :
    Reproduced keccak256 r r' := by
  have hloaded : r'.fixture.assets = r.fixture.assets := by
    rw [loadCycleFixture_assets hr'.loaded,loadCycleFixture_assets hr.loaded,hassets]
  have hallocation : r'.allocation = r.allocation := by
    have hallocated := hr'.allocated
    rw [h.eligibility,hloaded,h.fixture.cycle,h.weights] at hallocated
    exact Except.ok.inj (hallocated.symm.trans hr.allocated)
  have hreconciliation : r'.reconciliation = r.reconciliation := by
    have hreconciled := hr'.reconciled
    rw [hallocation,hr.reconciled] at hreconciled
    exact (Except.ok.inj hreconciled).symm
  have hallocations : r'.artifacts.allocations = r.artifacts.allocations := by
    rw [hr'.allocations,hr.allocations,hallocation,h.fixture.cycle]
  have hhash := congrArg (fun a => keccakOfCanonical keccak256 a.object) hallocations
  refine ⟨congrArg _ h.merkle,congrArg _ hallocations,hhash,congrArg _ (h.walletProofs hr hr'),?_,
    congrArg _ (h.manifest hr hr' hhash)⟩
  rw [hr'.reconciliation,hr.reconciliation,hreconciliation,h.merkle,h.fixture.cycle]

/-- The allocations list the assets as the fixture does. -/
theorem Ran.assets_eq (hr : Ran S keccak256 input r) (hr' : Ran S keccak256 input' r')
    (hinput : input.Reordered input')
    (hjson : r'.artifacts.allocations.json = r.artifacts.allocations.json) :
    input'.assets = input.assets := by
  have haddresses : ∀ {input : RawCycleFixture} {r : PipelineResult}, Ran S keccak256 input r →
      r.allocation.assets.map (fun x => x.asset.tokenAddress) =
        input.assets.map (fun a => toLowerCase a.tokenAddress) := by
    intro input r hr
    have hassets := congrArg (List.map AcquiredAsset.tokenAddress) (assets_of_allocate hr.allocated)
    rw [loadCycleFixture_assets hr.loaded,List.map_map,List.map_map] at hassets
    exact hassets
  rw [hr'.allocations,hr.allocations] at hjson
  have hlisted := buildAllocations_addresses hjson
  rw [haddresses hr,haddresses hr'] at hlisted
  have hdistinct := (loadCycleFixture_distinct hr.loaded).2.1
  rw [loadCycleFixture_assets hr.loaded,List.map_map] at hdistinct
  exact Reorder.eq_of_map_eq hinput.assets hdistinct hlisted

/-- A fixture with its lists in another order has the same root and the same wallet proofs; the
other artifacts are the same bytes exactly when its assets are in the same order. -/
theorem runProofOfDistribution_reproduced_iff
    (hrun : runProofOfDistribution S keccak256 input = .ok r) (hinput : input.Reordered input') :
    ∃ r', runProofOfDistribution S keccak256 input' = .ok r' ∧
      r'.merkle.map MerkleResult.root = r.merkle.map MerkleResult.root ∧
      r'.artifacts.walletProofs.json = r.artifacts.walletProofs.json ∧
      (Reproduced keccak256 r r' ↔ input'.assets = input.assets) := by
  have hr := runProofOfDistribution_eq_ok.1 hrun
  obtain ⟨r',hr',h⟩ := hr.reorder hinput
  refine ⟨r',runProofOfDistribution_eq_ok.2 hr',congrArg _ h.merkle,
    congrArg _ (h.walletProofs hr hr'),fun hreproduced => ?_,h.reproduced hr hr'⟩
  exact hr.assets_eq hr' hinput hreproduced.allocations

/-- The published sample with its two eligibility records the other way round. -/
def recordsSwapped : RawCycleFixture :=
  { ArtifactTampering.publishedInput with
    eligibility := [ArtifactTampering.sampleRecord 2,ArtifactTampering.sampleRecord 1] }

theorem recordsSwapped_reordered : ArtifactTampering.publishedInput.Reordered recordsSwapped where
  cycle := rfl
  excludedAddresses := List.Perm.refl _
  eligibility := List.Perm.swap _ _ _
  epochStartBalances := List.Perm.refl _
  transfers := List.Perm.refl _
  locks := List.Perm.refl _
  assets := List.Perm.refl _

theorem recordsSwapped_reproduced : ∃ r r',
    runProofOfDistribution (chainTrees toyHash) toyHash ArtifactTampering.publishedInput = .ok r ∧
    runProofOfDistribution (chainTrees toyHash) toyHash recordsSwapped = .ok r' ∧
    r.merkle.isSome = true ∧ Reproduced toyHash r r' := by
  have hok : (runProofOfDistribution (chainTrees toyHash) toyHash
      ArtifactTampering.publishedInput).toOption.elim false (fun r => r.merkle.isSome) = true := by
    decide +kernel
  rcases hr : runProofOfDistribution (chainTrees toyHash) toyHash
    ArtifactTampering.publishedInput with e | r
  · rw [hr] at hok
    exact Bool.noConfusion hok
  · rw [hr] at hok
    obtain ⟨r',hr',-,-,hreproduced⟩ :=
      runProofOfDistribution_reproduced_iff hr recordsSwapped_reordered
    exact ⟨r,r',rfl,hr',hok,hreproduced.2 rfl⟩

def secondAsset : RawAcquiredAsset := ⟨"U".toList,"U".toList,addressText 60,18,"500".toList⟩

def twoAssets : RawCycleFixture :=
  { ArtifactTampering.publishedInput with
    assets := ArtifactTampering.publishedInput.assets ++ [secondAsset] }

/-- The fixture of the two assets the other way round. -/
def assetsSwapped : RawCycleFixture :=
  { ArtifactTampering.publishedInput with
    assets := secondAsset::ArtifactTampering.publishedInput.assets }

theorem assetsSwapped_reordered : twoAssets.Reordered assetsSwapped where
  cycle := rfl
  excludedAddresses := List.Perm.refl _
  eligibility := List.Perm.refl _
  epochStartBalances := List.Perm.refl _
  transfers := List.Perm.refl _
  locks := List.Perm.refl _
  assets := List.Perm.swap _ _ _

/-- The texts of the artifacts that list the assets in the order of the fixture. -/
def texts (r : PipelineResult) : List Text :=
  [r.artifacts.allocations.json,r.artifacts.reconciliation.json]

/-- The allocations and the reconciliation both change. -/
theorem assetsSwapped_differ : twoAssets.Reordered assetsSwapped ∧ ∃ r r',
    runProofOfDistribution (chainTrees toyHash) toyHash twoAssets = .ok r ∧
    runProofOfDistribution (chainTrees toyHash) toyHash assetsSwapped = .ok r' ∧
    List.Forall₂ (· ≠ ·) (texts r) (texts r') ∧ ¬Reproduced toyHash r r' := by
  refine ⟨assetsSwapped_reordered,?_⟩
  have hdiffer : ((runProofOfDistribution (chainTrees toyHash) toyHash twoAssets).toOption.bind
      fun r => (runProofOfDistribution (chainTrees toyHash) toyHash assetsSwapped).toOption.map
        fun r' => decide (List.Forall₂ (· ≠ ·) (texts r) (texts r'))) = some true := by
    decide +kernel
  obtain ⟨r,hr,hmap⟩ := Option.bind_eq_some_iff.1 hdiffer
  obtain ⟨r',hr',hdiffer⟩ := Option.map_eq_some_iff.1 hmap
  have hdiffer := of_decide_eq_true hdiffer
  refine ⟨r,r',toOption_eq_some.1 hr,toOption_eq_some.1 hr',hdiffer,fun hreproduced => ?_⟩
  exact (List.forall₂_cons.1 hdiffer).1 hreproduced.allocations.symm

end Artifacts

end ArtifactReproducibility
end BpsProtocol
