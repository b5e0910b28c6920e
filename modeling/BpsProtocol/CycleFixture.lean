import BpsProtocol.Lib.Checked
import BpsProtocol.Lib.Pairing
import BpsProtocol.Shared

/-! `loadCycleFixture`: from a raw cycle fixture to the internal model.
A raw fixture has the shape that the strict schema demands; the schema's refinements and the
cross-field checks are the checks below, in the order of the source. -/
namespace BpsProtocol
namespace CycleFixture

open Checked Shared HexText

inductive LockTier
  | lock7D
  | lock14D
  | lock21D
  | lock30D
  deriving DecidableEq

def SUPPORTED_LOCK_TIERS : List LockTier := [.lock7D,.lock14D,.lock21D,.lock30D]

structure TierSpec where
  multiplierBps : ℤ
  durationSeconds : ℤ

def TIER_SPECS : LockTier → TierSpec
  | .lock7D => ⟨11000,7*86400⟩
  | .lock14D => ⟨12500,14*86400⟩
  | .lock21D => ⟨15000,21*86400⟩
  | .lock30D => ⟨17500,30*86400⟩

def LockTier.text : LockTier → Text
  | .lock7D => "LOCK_7D".toList
  | .lock14D => "LOCK_14D".toList
  | .lock21D => "LOCK_21D".toList
  | .lock30D => "LOCK_30D".toList

def tierOf (text : Text) : Option LockTier :=
  SUPPORTED_LOCK_TIERS.find? (fun tier => tier.text = text)

inductive ExclusionCategory
  | uniswapPool
  | nonfungiblePositionManager
  | zeroBurnDead
  | officialRouter
  | acquisitionVault
  | distributionVault
  | strategicAssetReserve
  | lockingVault
  | protocolTreasury
  | teamVesting
  | bridge
  | contractIneligible
  | explicitManifest
  deriving DecidableEq

def EXCLUSION_CATEGORIES : List (ExclusionCategory × String) :=
  [(.uniswapPool,"UNISWAP_POOL"),(.nonfungiblePositionManager,"NONFUNGIBLE_POSITION_MANAGER"),
    (.zeroBurnDead,"ZERO_BURN_DEAD"),(.officialRouter,"OFFICIAL_ROUTER"),
    (.acquisitionVault,"ACQUISITION_VAULT"),(.distributionVault,"DISTRIBUTION_VAULT"),
    (.strategicAssetReserve,"STRATEGIC_ASSET_RESERVE"),(.lockingVault,"LOCKING_VAULT"),
    (.protocolTreasury,"PROTOCOL_TREASURY"),(.teamVesting,"TEAM_VESTING"),(.bridge,"BRIDGE"),
    (.contractIneligible,"CONTRACT_INELIGIBLE"),(.explicitManifest,"EXPLICIT_MANIFEST")]

def categoryOf (text : Text) : Option ExclusionCategory :=
  (EXCLUSION_CATEGORIES.find? (fun c => c.2.toList = text)).map Prod.fst

def EPOCH_SECONDS : ℤ := 900

def ECON_VERSION : Text := "BPS-ECON-2.0".toList

structure ConfirmedTransfer where
  chainId : ℤ
  blockNumber : ℤ
  blockHash : Text
  transactionHash : Text
  transactionIndex : ℤ
  logIndex : ℤ
  timestamp : ℤ
  source : Text
  target : Text
  rawAmount : ℤ
  deriving DecidableEq

structure EpochStartBalance where
  wallet : Text
  rawBalance : ℤ
  deriving DecidableEq

structure LockRecord where
  wallet : Text
  rawPrincipal : ℤ
  tier : LockTier
  startTimestamp : ℤ
  unlockTimestamp : ℤ
  withdrawalTimestamp : Option ℤ
  deriving DecidableEq

structure EligibilityRecord where
  wallet : Text
  eligible : Bool
  policyVersion : Text
  validFrom : ℤ
  expiry : Option ℤ
  revoked : Bool
  deriving DecidableEq

structure ExcludedAddress where
  address : Text
  category : ExclusionCategory
  reason : Text
  policyVersion : Text
  deriving DecidableEq

structure AcquiredAsset where
  ticker : Text
  name : Text
  tokenAddress : Text
  decimals : ℤ
  acquiredRawAmount : ℤ
  deriving DecidableEq

structure Fixture where
  cycle : CycleConfig
  excludedAddresses : List ExcludedAddress
  eligibility : List EligibilityRecord
  epochStartBalances : List EpochStartBalance
  transfers : List ConfirmedTransfer
  locks : List LockRecord
  assets : List AcquiredAsset

structure RawCycleConfig where
  schemaVersion : Text
  cycleId : Text
  chainId : Text
  bpsTokenAddress : Text
  claimManagerAddress : Text
  economicsVersion : Text
  rewardPolicyVersion : Text
  epochId : Text
  epochStart : Text
  epochEnd : Text
  startBlock : Text
  endBlock : Text
  snapshotBlock : Text
  finalizedBlock : Text
  confirmationDepth : Text
  claimStart : Text
  claimDeadline : Text
  termsVersion : Text
  eligibilityPolicyVersion : Text
  restrictedJurisdictionPolicyVersion : Text

structure RawConfirmedTransfer where
  chainId : Text
  blockNumber : Text
  blockHash : Text
  transactionHash : Text
  transactionIndex : Text
  logIndex : Text
  timestamp : Text
  source : Text
  target : Text
  rawAmount : Text

structure RawEpochStartBalance where
  wallet : Text
  rawBalance : Text

structure RawLockRecord where
  wallet : Text
  rawPrincipal : Text
  tier : Text
  startTimestamp : Text
  unlockTimestamp : Text
  withdrawalTimestamp : Option Text

structure RawEligibilityRecord where
  wallet : Text
  eligible : Bool
  policyVersion : Text
  validFrom : Text
  expiry : Option Text
  revoked : Bool

structure RawExcludedAddress where
  address : Text
  category : Text
  reason : Text
  policyVersion : Text

structure RawAcquiredAsset where
  ticker : Text
  name : Text
  tokenAddress : Text
  decimals : ℤ
  acquiredRawAmount : Text

structure RawCycleFixture where
  cycle : RawCycleConfig
  excludedAddresses : List RawExcludedAddress
  eligibility : List RawEligibilityRecord
  epochStartBalances : List RawEpochStartBalance
  transfers : List RawConfirmedTransfer
  locks : List RawLockRecord
  assets : List RawAcquiredAsset

section Schemas

/-- `zBig`, `zAddress`, `zHash32` and `z.string().min(1)`. -/
def zBig (v : Text) : Bool := isNonNegativeIntegerString v
def zAddress (v : Text) : Bool := isHexAddress v
def zText (v : Text) : Bool := v ≠ []
def zHash32 : Text → Bool
  | '0' :: 'x' :: digits => digits.length = 64 && digits.all isDigit
  | _ => false

def cycleConfigSchema (c : RawCycleConfig) : Bool :=
  [c.schemaVersion,c.rewardPolicyVersion,c.termsVersion,c.eligibilityPolicyVersion,
    c.restrictedJurisdictionPolicyVersion].all zText &&
  [c.cycleId,c.chainId,c.epochId,c.epochStart,c.epochEnd,c.startBlock,c.endBlock,c.snapshotBlock,
    c.finalizedBlock,c.confirmationDepth,c.claimStart,c.claimDeadline].all zBig &&
  [c.bpsTokenAddress,c.claimManagerAddress].all zAddress && c.economicsVersion = ECON_VERSION

def confirmedTransferSchema (t : RawConfirmedTransfer) : Bool :=
  [t.chainId,t.blockNumber,t.transactionIndex,t.logIndex,t.timestamp,t.rawAmount].all zBig &&
  [t.blockHash,t.transactionHash].all zHash32 && [t.source,t.target].all zAddress

def epochStartBalanceSchema (b : RawEpochStartBalance) : Bool := zAddress b.wallet && zBig b.rawBalance

def lockRecordSchema (l : RawLockRecord) : Bool :=
  zAddress l.wallet && [l.rawPrincipal,l.startTimestamp,l.unlockTimestamp].all zBig &&
  (tierOf l.tier).isSome && l.withdrawalTimestamp.all zBig

def eligibilityRecordSchema (r : RawEligibilityRecord) : Bool :=
  zAddress r.wallet && zText r.policyVersion && zBig r.validFrom && r.expiry.all zBig

def excludedAddressSchema (e : RawExcludedAddress) : Bool :=
  zAddress e.address && (categoryOf e.category).isSome && zText e.reason && zText e.policyVersion

def acquiredAssetSchema (a : RawAcquiredAsset) : Bool :=
  zText a.ticker && zText a.name && zAddress a.tokenAddress && 0 ≤ a.decimals && a.decimals ≤ 255 &&
  zBig a.acquiredRawAmount

def cycleFixtureSchema (f : RawCycleFixture) : Bool :=
  cycleConfigSchema f.cycle && f.excludedAddresses.all excludedAddressSchema &&
  f.eligibility.all eligibilityRecordSchema && f.epochStartBalances.all epochStartBalanceSchema &&
  f.transfers.all confirmedTransferSchema && f.locks.all lockRecordSchema &&
  f.assets.all acquiredAssetSchema && f.assets ≠ []

/-- `parseCycleFixture` -/
def parseCycleFixture (f : RawCycleFixture) : Except ProofOfDistributionError RawCycleFixture := do
  revertIf (cycleFixtureSchema f = false) .invalidFixture
  return f

end Schemas

def normalize (value : Text) (field : String) : Except ProofOfDistributionError Text :=
  normalizeAddress value field.toList

def normalizeCycle (raw : RawCycleConfig) : Except ProofOfDistributionError CycleConfig := do
  let bpsTokenAddress ← normalize raw.bpsTokenAddress "cycle.bpsTokenAddress"
  let claimManagerAddress ← normalize raw.claimManagerAddress "cycle.claimManagerAddress"
  let cycle : CycleConfig := {
    schemaVersion := raw.schemaVersion
    cycleId := bigInt raw.cycleId
    chainId := bigInt raw.chainId
    bpsTokenAddress,claimManagerAddress
    economicsVersion := raw.economicsVersion
    rewardPolicyVersion := raw.rewardPolicyVersion
    epochId := bigInt raw.epochId
    epochStart := bigInt raw.epochStart
    epochEnd := bigInt raw.epochEnd
    startBlock := bigInt raw.startBlock
    endBlock := bigInt raw.endBlock
    snapshotBlock := bigInt raw.snapshotBlock
    finalizedBlock := bigInt raw.finalizedBlock
    confirmationDepth := bigInt raw.confirmationDepth
    claimStart := bigInt raw.claimStart
    claimDeadline := bigInt raw.claimDeadline
    termsVersion := raw.termsVersion
    eligibilityPolicyVersion := raw.eligibilityPolicyVersion
    restrictedJurisdictionPolicyVersion := raw.restrictedJurisdictionPolicyVersion }
  revertIf (cycle.epochStart ≠ cycle.epochId*EPOCH_SECONDS)
    (.epochBoundary "cycle.epochStart must equal epochId * 900".toList)
  revertIf (cycle.epochEnd ≠ cycle.epochStart+EPOCH_SECONDS)
    (.epochBoundary "cycle.epochEnd must equal epochStart + 900".toList)
  revertIf (cycle.endBlock < cycle.startBlock)
    (.blockOrder "cycle.startBlock must be <= endBlock".toList)
  revertIf (cycle.snapshotBlock < cycle.startBlock ∨ cycle.endBlock < cycle.snapshotBlock)
    (.blockOrder "cycle.snapshotBlock must be within [startBlock, endBlock]".toList)
  revertIf (cycle.finalizedBlock < cycle.snapshotBlock) .snapshotAfterFinalized
  revertIf (cycle.finalizedBlock < cycle.endBlock)
    (.blockOrder "cycle.endBlock must be <= finalizedBlock".toList)
  revertIf (cycle.claimDeadline < cycle.claimStart) .claimPeriod
  return cycle

section Lists

variable {α β : Type}

/-- The loop over rows that each name an address, no address twice. -/
def normalizeDistinct (field : String) (duplicate : Text → ProofOfDistributionError)
    (address : α → Text) (build : α → Text → β) :
    List Text → List α → Except ProofOfDistributionError (List β)
  | _, [] => .ok []
  | seen, r::rest => do
    let key ← normalize (address r) field
    revertIf (key ∈ seen) (duplicate key)
    let built ← normalizeDistinct field duplicate address build (seen ++ [key]) rest
    return build r key::built

def normalizeExclusions (raw : List RawExcludedAddress) :
    Except ProofOfDistributionError (List ExcludedAddress) :=
  normalizeDistinct "excludedAddress.address" .duplicateExclusion RawExcludedAddress.address
    (fun e address => ⟨address,(categoryOf e.category).getD .explicitManifest,e.reason,e.policyVersion⟩)
    [] raw

def normalizeEligibility (raw : List RawEligibilityRecord) :
    Except ProofOfDistributionError (List EligibilityRecord) :=
  normalizeDistinct "eligibility.wallet" .duplicateHolder RawEligibilityRecord.wallet
    (fun r wallet => ⟨wallet,r.eligible,r.policyVersion,bigInt r.validFrom,r.expiry.map bigInt,
      r.revoked⟩) [] raw

def normalizeBalances (raw : List RawEpochStartBalance) :
    Except ProofOfDistributionError (List EpochStartBalance) :=
  normalizeDistinct "epochStartBalance.wallet" .duplicateHolder RawEpochStartBalance.wallet
    (fun r wallet => ⟨wallet,bigInt r.rawBalance⟩) [] raw

def normalizeAssets (raw : List RawAcquiredAsset) :
    Except ProofOfDistributionError (List AcquiredAsset) :=
  normalizeDistinct "asset.tokenAddress" .duplicateAsset RawAcquiredAsset.tokenAddress
    (fun a tokenAddress => ⟨a.ticker,a.name,tokenAddress,a.decimals,bigInt a.acquiredRawAmount⟩)
    [] raw

def normalizeTransfer (cycle : CycleConfig) (t : RawConfirmedTransfer) :
    Except ProofOfDistributionError ConfirmedTransfer := do
  revertIf (bigInt t.chainId ≠ cycle.chainId) (.chainMismatch t.chainId)
  let timestamp := bigInt t.timestamp
  revertIf (timestamp < cycle.epochStart ∨ cycle.epochEnd < timestamp)
    (.transferOutOfEpoch t.timestamp)
  let source ← normalize t.source "transfer.from"
  let target ← normalize t.target "transfer.to"
  return {
    chainId := bigInt t.chainId
    blockNumber := bigInt t.blockNumber
    blockHash := toLowerCase t.blockHash
    transactionHash := toLowerCase t.transactionHash
    transactionIndex := bigInt t.transactionIndex
    logIndex := bigInt t.logIndex
    timestamp,source,target
    rawAmount := bigInt t.rawAmount }

def normalizeLock (l : RawLockRecord) : Except ProofOfDistributionError LockRecord := do
  let tier ← orRevert (.unsupportedTier l.tier) (tierOf l.tier)
  let startTimestamp := bigInt l.startTimestamp
  let unlockTimestamp := bigInt l.unlockTimestamp
  revertIf (unlockTimestamp-startTimestamp ≠ (TIER_SPECS tier).durationSeconds)
    (.unsupportedDuration l.wallet)
  let withdrawalTimestamp := l.withdrawalTimestamp.map bigInt
  revertIf (∃ withdrawal ∈ withdrawalTimestamp, withdrawal < startTimestamp)
    (.badWithdrawal l.wallet)
  let wallet ← normalize l.wallet "lock.wallet"
  return {
    wallet
    rawPrincipal := bigInt l.rawPrincipal
    tier,startTimestamp,unlockTimestamp,withdrawalTimestamp }

end Lists

def loadCycleFixture (input : RawCycleFixture) : Except ProofOfDistributionError Fixture := do
  let raw ← parseCycleFixture input
  let cycle ← normalizeCycle raw.cycle
  let excludedAddresses ← normalizeExclusions raw.excludedAddresses
  let eligibility ← normalizeEligibility raw.eligibility
  let epochStartBalances ← normalizeBalances raw.epochStartBalances
  let transfers ← raw.transfers.mapM (normalizeTransfer cycle)
  let locks ← raw.locks.mapM normalizeLock
  let assets ← normalizeAssets raw.assets
  return { cycle,excludedAddresses,eligibility,epochStartBalances,transfers,locks,assets }

theorem bigInt_nonneg (v : Text) : 0 ≤ bigInt v := Int.natCast_nonneg _

/-- What the weights rely on of a loaded fixture. -/
structure Accepted (f : Fixture) : Prop where
  epochEnd : f.cycle.epochEnd = f.cycle.epochStart+EPOCH_SECONDS
  opening : ∀ b ∈ f.epochStartBalances, 0 ≤ b.rawBalance
  amounts : ∀ t ∈ f.transfers, 0 ≤ t.rawAmount
  within : ∀ t ∈ f.transfers,
    f.cycle.epochStart ≤ t.timestamp ∧ t.timestamp ≤ f.cycle.epochEnd
  principals : ∀ l ∈ f.locks, 0 ≤ l.rawPrincipal

section Loaded

variable {α β : Type} {field : String} {duplicate : Text → ProofOfDistributionError}
  {address : α → Text} {build : α → Text → β}

/-- Each row is built from its own normalized address. -/
theorem mem_of_normalizeDistinct {seen : List Text} {rows : List α} {built : List β}
    (h : normalizeDistinct field duplicate address build seen rows = .ok built) {x : β}
    (hx : x ∈ built) : ∃ r ∈ rows, ∃ key, x = build r key := by
  induction rows generalizing seen built with
  | nil =>
    obtain rfl := Except.ok.inj h
    exact absurd hx List.not_mem_nil
  | cons r rest ih =>
    simp only [normalizeDistinct,bind_eq_ok,revertIf_eq_ok,exists_const,pure_eq_ok] at h
    obtain ⟨key,-,-,built',hbuilt,rfl⟩ := h
    rcases List.mem_cons.1 hx with rfl | hx
    · exact ⟨r,by simp,key,rfl⟩
    · obtain ⟨r',hr',key',hkey⟩ := ih hbuilt hx
      exact ⟨r',List.mem_cons_of_mem _ hr',key',hkey⟩

theorem mem_of_mapM {ε : Type} {f : α → Except ε β} {rows : List α} {built : List β}
    (h : rows.mapM f = .ok built) {x : β} (hx : x ∈ built) : ∃ r ∈ rows, f r = .ok x :=
  Pairing.exists_left (mapM_eq_ok.1 h) hx

theorem loadCycleFixture_ok {input : RawCycleFixture} {f : Fixture}
    (h : loadCycleFixture input = .ok f) : Accepted f := by
  simp only [loadCycleFixture,bind_eq_ok,pure_eq_ok] at h
  obtain ⟨raw,-,cycle,hcycle,-,-,-,-,balances,hbalances,transfers,htransfers,locks,hlocks,-,-,rfl⟩ :=
    h
  refine ⟨?_,?_,?_,?_,?_⟩
  · simp only [normalizeCycle,bind_eq_ok,revertIf_eq_ok,exists_const,pure_eq_ok] at hcycle
    obtain ⟨_,-,_,-,-,hend,-,-,-,-,-,rfl⟩ := hcycle
    exact not_not.1 hend
  · intro b hb
    obtain ⟨r,-,key,rfl⟩ := mem_of_normalizeDistinct hbalances hb
    exact bigInt_nonneg _
  · intro t ht
    obtain ⟨r,-,hr⟩ := mem_of_mapM htransfers ht
    simp only [normalizeTransfer,bind_eq_ok,revertIf_eq_ok,exists_const,pure_eq_ok] at hr
    obtain ⟨-,-,_,-,_,-,rfl⟩ := hr
    exact bigInt_nonneg _
  · intro t ht
    obtain ⟨r,-,hr⟩ := mem_of_mapM htransfers ht
    simp only [normalizeTransfer,bind_eq_ok,revertIf_eq_ok,exists_const,pure_eq_ok] at hr
    obtain ⟨-,hwithin,_,-,_,-,rfl⟩ := hr
    dsimp only
    omega
  · intro l hl
    obtain ⟨r,-,hr⟩ := mem_of_mapM hlocks hl
    simp only [normalizeLock,bind_eq_ok,revertIf_eq_ok,orRevert_eq_ok,exists_const,
      pure_eq_ok] at hr
    obtain ⟨tier,-,-,-,_,-,rfl⟩ := hr
    exact bigInt_nonneg _

end Loaded

end CycleFixture
end BpsProtocol
