import BpsProtocol.Twab

/-! `resolveEligibility`, `allocateAsset` and `allocate`: who is eligible, and how the acquired
inventory of each asset is split and shared out.
The weights are read by wallet only, so their map is a function. -/
namespace BpsProtocol
namespace Allocation

open Checked Mapping Shared HexText CycleFixture Twab

def PARTICIPANT_POOL_BPS : ℤ := 8000

def BPS_DENOMINATOR : ℤ := 10000

abbrev WeightMap := Text → Option WalletWeight

/-- `weights.set(w.wallet, w)` for every weight in turn. -/
def weightMap (weights : List WalletWeight) : WeightMap :=
  weights.foldl (fun m w => set m w.wallet (some w)) (fun _ => none)

/-- `(weights.get(wallet) ?? ZERO_WEIGHT).effectiveWeight` and its siblings. -/
def readWeight (field : WalletWeight → ℤ) (weights : WeightMap) (wallet : Text) : ℤ :=
  match weights wallet with
  | some weight => field weight
  | none => 0

def effectiveWeight : WeightMap → Text → ℤ := readWeight WalletWeight.effectiveWeight

structure EligibilityResolution where
  eligibleWallets : List Text
  excluded : List Text
  referenceTimestamp : ℤ
  totalEligibleSnapshotBalance : ℤ
  totalBaseTwab : ℤ
  totalEffectiveWeight : ℤ
  deriving DecidableEq

/-- The record passes every `continue` of the loop. -/
def isEligible (cycle : CycleConfig) (excluded : List Text) (r : EligibilityRecord) : Bool :=
  r.eligible && !r.revoked && r.policyVersion = cycle.eligibilityPolicyVersion &&
  r.validFrom ≤ cycle.epochEnd &&
  (match r.expiry with
    | some expiry => cycle.epochEnd < expiry
    | none => true) &&
  r.wallet ∉ excluded

/-- Ascending by the code units of the address. -/
def sortWallets (wallets : List Text) : List Text :=
  wallets.insertionSort (fun a b => List.le a b)

/-- The sum over the eligible wallets. -/
def total (field : WalletWeight → ℤ) (weights : WeightMap) (wallets : List Text) : ℤ :=
  (wallets.map (readWeight field weights)).sum

def resolveEligibility (cycle : CycleConfig) (excludedAddresses : List ExcludedAddress)
    (eligibility : List EligibilityRecord) (weights : WeightMap) : EligibilityResolution :=
  let excluded := excludedAddresses.map ExcludedAddress.address
  let eligibleWallets := sortWallets
    ((eligibility.filter (isEligible cycle excluded)).map EligibilityRecord.wallet)
  { eligibleWallets,excluded
    referenceTimestamp := cycle.epochEnd
    totalEligibleSnapshotBalance := total WalletWeight.snapshotBalance weights eligibleWallets
    totalBaseTwab := total WalletWeight.baseTwab weights eligibleWallets
    totalEffectiveWeight := total WalletWeight.effectiveWeight weights eligibleWallets }

structure WalletAllocation where
  wallet : Text
  amount : ℤ
  deriving DecidableEq

structure AssetAllocation where
  asset : AcquiredAsset
  acquired : ℤ
  participantPool : ℤ
  strategicReserve : ℤ
  allocated : ℤ
  distributionDust : ℤ
  walletAllocations : List WalletAllocation
  entitlements : List Entitlement
  deriving DecidableEq

/-- The variables of the loop over the eligible wallets. -/
structure Allotted where
  allocated : ℤ
  walletAllocations : List WalletAllocation
  entitlements : List Entitlement

def allotWallet (cycle : CycleConfig) (asset : AcquiredAsset) (participantPool : ℤ)
    (weights : WeightMap) (totalEffectiveWeight : ℤ) (s : Allotted) (wallet : Text) :
    Except ProofOfDistributionError Allotted := do
  let weight := effectiveWeight weights wallet
  if weight ≤ 0 then
    return s
  else do
    let amount ← mulDivFloor participantPool weight totalEffectiveWeight
    return if amount ≤ 0 then s
      else {
        allocated := s.allocated+amount
        walletAllocations := s.walletAllocations ++ [⟨wallet,amount⟩]
        entitlements := s.entitlements ++ [⟨cycle.cycleId,wallet,asset.tokenAddress,amount⟩] }

/-- The loop over the eligible wallets. -/
def allotAll (cycle : CycleConfig) (asset : AcquiredAsset) (participantPool : ℤ)
    (weights : WeightMap) (totalEffectiveWeight : ℤ) :
    Allotted → List Text → Except ProofOfDistributionError Allotted
  | s, [] => .ok s
  | s, wallet::rest => do
    let s ← allotWallet cycle asset participantPool weights totalEffectiveWeight s wallet
    allotAll cycle asset participantPool weights totalEffectiveWeight s rest

/-- The loop is entered only for a positive total. -/
def allot (cycle : CycleConfig) (asset : AcquiredAsset) (participantPool : ℤ)
    (weights : WeightMap) (totalEffectiveWeight : ℤ) (eligibleWallets : List Text) :
    Except ProofOfDistributionError Allotted :=
  if 0 < totalEffectiveWeight then
    allotAll cycle asset participantPool weights totalEffectiveWeight ⟨0,[],[]⟩ eligibleWallets
  else .ok ⟨0,[],[]⟩

def allocateAsset (cycle : CycleConfig) (asset : AcquiredAsset) (eligibleWallets : List Text)
    (weights : WeightMap) (totalEffectiveWeight : ℤ) :
    Except ProofOfDistributionError AssetAllocation := do
  let acquired := asset.acquiredRawAmount
  let participantPool ← mulDivFloor acquired PARTICIPANT_POOL_BPS BPS_DENOMINATOR
  let strategicReserve := acquired-participantPool
  let s ← allot cycle asset participantPool weights totalEffectiveWeight eligibleWallets
  let distributionDust := participantPool-s.allocated
  revertIf (participantPool+strategicReserve ≠ acquired)
    (.allocConservation asset.tokenAddress "pool + reserve != acquired")
  revertIf (s.allocated+distributionDust ≠ participantPool)
    (.allocConservation asset.tokenAddress "allocated + dust != participantPool")
  revertIf (participantPool < s.allocated) (.allocOverflow asset.tokenAddress)
  return {
    asset,acquired,participantPool,strategicReserve
    allocated := s.allocated
    distributionDust
    walletAllocations := s.walletAllocations
    entitlements := s.entitlements }

structure AllocationResult where
  assets : List AssetAllocation
  entitlements : List Entitlement
  totalEffectiveWeight : ℤ
  publishable : Bool
  nonPublishableReason : Option Text
  deriving DecidableEq

/-- Why an allocation is not published; no reason where it is. -/
def nonPublishableReason (totalEffectiveWeight : ℤ) (entitlements : List Entitlement) :
    Option Text :=
  if totalEffectiveWeight = 0 then
    some "total effective weight is zero; no entitlements or Merkle root produced".toList
  else if entitlements.length = 0 then
    some "no non-zero entitlements were produced; nothing to publish".toList
  else none

def allocate (cycle : CycleConfig) (assets : List AcquiredAsset) (eligibleWallets : List Text)
    (weights : WeightMap) (totalEffectiveWeight : ℤ) :
    Except ProofOfDistributionError AllocationResult := do
  let assetAllocations ← assets.mapM (fun asset =>
    allocateAsset cycle asset eligibleWallets weights totalEffectiveWeight)
  let entitlements := assetAllocations.flatMap AssetAllocation.entitlements
  let reason := nonPublishableReason totalEffectiveWeight entitlements
  return {
    assets := assetAllocations
    entitlements,totalEffectiveWeight
    publishable := reason.isNone
    nonPublishableReason := reason }

end Allocation
end BpsProtocol
