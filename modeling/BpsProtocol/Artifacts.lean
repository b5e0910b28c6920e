import BpsProtocol.Allocation
import BpsProtocol.Lib.Json
import BpsProtocol.ViemVerify

/-! The artifacts of a cycle: allocations, wallet proofs, reconciliation and manifest.
Every amount is a decimal string.  An artifact is an object and its canonical text; the
wallet proofs, which are verified field by field, are a record. -/
namespace BpsProtocol
namespace Artifacts

open Checked Shared CycleFixture LeafEncoding MerkleProof Merkle Allocation ViemVerify Twab

def MANIFEST_SCHEMA_VERSION : String := "bps.pod.manifest/1"
def LEAF_SCHEMA_VERSION : String := "bps.pod.leaf/1"

def ALLOCATION_ROUNDING_POLICY : String :=
  "floor(participantPool * walletEffectiveWeight / totalEffectiveWeight); " ++
    "per-wallet floor, remainder retained as distribution dust in the vault"

def RESERVE_POLICY : String :=
  "participantPool = floor(acquired * 8000 / 10000); strategicReserve = acquired - participantPool"

def LEAF_ORDER : List String :=
  ["chainId","claimManager","cycleId","wallet","asset","amount"]

def FICTIONAL_NOTICE : String :=
  "All assets, tickers, and addresses in this artifact are fictional. This is a mock " ++
    "proof-of-distribution computation."

def ONCHAIN_NOTICE : String :=
  "No on-chain claim or protocol transaction occurred. Proofs are claim-ready but unclaimed."

/-! ## Reconciliation -/

structure AssetReconciliation where
  assetAddress : Text
  ticker : Text
  decimals : ℤ
  acquired : ℤ
  participantPool : ℤ
  strategicReserve : ℤ
  allocated : ℤ
  distributionDust : ℤ
  fundedRequired : ℤ
  claimable : ℤ
  claimed : ℤ
  unclaimed : ℤ
  rollover : ℤ
  claimExecuted : Bool
  deriving DecidableEq

structure Reconciliation where
  publishable : Bool
  assets : List AssetReconciliation
  deriving DecidableEq

def reconcileAsset (a : AssetAllocation) : Except ProofOfDistributionError AssetReconciliation := do
  revertIf (a.acquired ≠ a.strategicReserve+a.allocated+a.distributionDust)
    (.reconConservation a.asset.tokenAddress)
  return {
    assetAddress := a.asset.tokenAddress
    ticker := a.asset.ticker
    decimals := a.asset.decimals
    acquired := a.acquired
    participantPool := a.participantPool
    strategicReserve := a.strategicReserve
    allocated := a.allocated
    distributionDust := a.distributionDust
    fundedRequired := a.allocated
    claimable := a.allocated
    claimed := 0
    unclaimed := a.allocated
    rollover := a.distributionDust
    claimExecuted := false }

def reconcile (allocation : AllocationResult) :
    Except ProofOfDistributionError Reconciliation := do
  let assets ← allocation.assets.mapM reconcileAsset
  return { publishable := allocation.publishable,assets }

/-! ## Serialization -/

/-- The UTF-8 bytes of a string. -/
def stringToBytes (text : Text) : Bytes := (String.ofList text).toUTF8.data.toList

def canonicalStringify (value : Json) : Text := Json.stringify 0 (Json.canonicalize value)

def keccakOfString (keccak256 : Hash) (text : Text) : Text :=
  wordText (keccak256 (stringToBytes text))

def keccakOfCanonical (keccak256 : Hash) (value : Json) : Text :=
  keccakOfString keccak256 (canonicalStringify value)

structure Artifact (α : Type) where
  object : α
  json : Text

def withNewline (value : Json) : Text := canonicalStringify value ++ ['\x0a']

/-- `value.toString(10)` -/
def s (value : ℤ) : Json := .str (toString10 value)

def constant (text : String) : Json := .str text.toList

def field (key : String) (value : Json) : Text × Json := (key.toList,value)

def nullable {α : Type} (f : α → Json) : Option α → Json
  | some a => f a
  | none => .null

def abiTypeText : AbiType → Text
  | .uint256 => "uint256".toList
  | .address => "address".toList

def categoryText (category : ExclusionCategory) : Text :=
  match EXCLUSION_CATEGORIES.find? (fun c => c.1 = category) with
  | some c => c.2.toList
  | none => []

/-! ## Allocations -/

def assetAllocationJson (a : AssetAllocation) : Json :=
  .obj [
    field "assetAddress" (.str a.asset.tokenAddress),
    field "ticker" (.str a.asset.ticker),
    field "name" (.str a.asset.name),
    field "decimals" (.num a.asset.decimals),
    field "acquired" (s a.acquired),
    field "participantPool" (s a.participantPool),
    field "strategicReserve" (s a.strategicReserve),
    field "allocated" (s a.allocated),
    field "distributionDust" (s a.distributionDust),
    field "entitlementCount" (.num a.entitlements.length),
    field "allocations" (.arr (a.walletAllocations.map (fun w =>
      .obj [field "wallet" (.str w.wallet),field "amount" (s w.amount)])))]

def buildAllocations (cycle : CycleConfig) (allocation : AllocationResult) : Artifact Json :=
  let object := Json.obj [
    field "schemaVersion" (constant "bps.pod.allocations/1"),
    field "cycleId" (s cycle.cycleId),
    field "chainId" (s cycle.chainId),
    field "economicsVersion" (.str ECON_VERSION),
    field "rewardPolicyVersion" (.str cycle.rewardPolicyVersion),
    field "totalEffectiveWeight" (s allocation.totalEffectiveWeight),
    field "publishable" (.bool allocation.publishable),
    field "assets" (.arr (allocation.assets.map assetAllocationJson))]
  { object,json := withNewline object }

/-! ## Wallet proofs -/

structure ProofEntry where
  asset : Text
  amount : Text
  leaf : Text
  proof : List Text
  deriving DecidableEq

/-- The object of the wallet proofs.  `wallets` lists its members in their order. -/
structure WalletProofs where
  schemaVersion : Text
  leafSchemaVersion : Text
  cycleId : Text
  chainId : Text
  claimManager : Text
  economicsVersion : Text
  publishable : Bool
  merkleRoot : Option Text
  leafEncoding : List Text
  leafOrder : List Text
  wallets : List (Text × List ProofEntry)
  deriving DecidableEq

def ProofEntry.toJson (e : ProofEntry) : Json :=
  .obj [
    field "asset" (.str e.asset),
    field "amount" (.str e.amount),
    field "leaf" (.str e.leaf),
    field "proof" (.arr (e.proof.map .str))]

def WalletProofs.toJson (wp : WalletProofs) : Json :=
  .obj [
    field "schemaVersion" (.str wp.schemaVersion),
    field "leafSchemaVersion" (.str wp.leafSchemaVersion),
    field "cycleId" (.str wp.cycleId),
    field "chainId" (.str wp.chainId),
    field "claimManager" (.str wp.claimManager),
    field "economicsVersion" (.str wp.economicsVersion),
    field "publishable" (.bool wp.publishable),
    field "merkleRoot" (nullable .str wp.merkleRoot),
    field "leafEncoding" (.arr (wp.leafEncoding.map .str)),
    field "leafOrder" (.arr (wp.leafOrder.map .str)),
    field "wallets" (.obj (wp.wallets.map (fun w => (w.1,.arr (w.2.map ProofEntry.toJson)))))]

/-- The keys of the wallet index in the order in which `buildMerkle` sets them. -/
def indexKeys (merkle : MerkleResult) : List Text :=
  merkle.entries.foldl (fun keys entry => addOnce keys entry.entitlement.wallet) []

/-- `[...entries].sort(…)` by asset. -/
def sortByAsset (entries : List MerkleLeafEntry) : List MerkleLeafEntry :=
  entries.insertionSort (fun x y => List.le x.entitlement.asset y.entitlement.asset)

def proofEntry (e : MerkleLeafEntry) : ProofEntry :=
  { asset := e.entitlement.asset
    amount := toString10 e.entitlement.amount
    leaf := wordText e.leaf
    proof := e.proof.map wordText }

def walletsOf (merkle : MerkleResult) : List (Text × List ProofEntry) :=
  (indexKeys merkle).map (fun wallet =>
    (wallet,(sortByAsset ((merkle.walletIndex wallet).getD [])).map proofEntry))

def buildWalletProofs (cycle : CycleConfig) (merkle : Option MerkleResult)
    (allocation : AllocationResult) : Artifact WalletProofs :=
  let object : WalletProofs :=
    { schemaVersion := "bps.pod.wallet-proofs/1".toList
      leafSchemaVersion := LEAF_SCHEMA_VERSION.toList
      cycleId := toString10 cycle.cycleId
      chainId := toString10 cycle.chainId
      claimManager := cycle.claimManagerAddress
      economicsVersion := ECON_VERSION
      publishable := allocation.publishable
      merkleRoot := merkle.map (fun m => wordText m.root)
      leafEncoding := LEAF_ABI_TYPES.map abiTypeText
      leafOrder := LEAF_ORDER.map String.toList
      wallets :=
        match merkle with
        | some m => walletsOf m
        | none => [] }
  { object,json := withNewline object.toJson }

/-! ## Reconciliation artifact and manifest -/

def rootJson (merkle : Option MerkleResult) : Json := nullable (fun m => .str (wordText m.root)) merkle

def assetReconciliationJson (a : AssetReconciliation) : Json :=
  .obj [
    field "assetAddress" (.str a.assetAddress),
    field "ticker" (.str a.ticker),
    field "decimals" (.num a.decimals),
    field "acquired" (s a.acquired),
    field "participantPool" (s a.participantPool),
    field "strategicReserve" (s a.strategicReserve),
    field "allocated" (s a.allocated),
    field "distributionDust" (s a.distributionDust),
    field "fundedRequired" (s a.fundedRequired),
    field "claimable" (s a.claimable),
    field "claimed" (s a.claimed),
    field "unclaimed" (s a.unclaimed),
    field "rollover" (s a.rollover),
    field "claimExecuted" (.bool a.claimExecuted)]

def buildReconciliation (cycle : CycleConfig) (recon : Reconciliation)
    (merkle : Option MerkleResult) : Artifact Json :=
  let object := Json.obj [
    field "schemaVersion" (constant "bps.pod.reconciliation/1"),
    field "cycleId" (s cycle.cycleId),
    field "chainId" (s cycle.chainId),
    field "economicsVersion" (.str ECON_VERSION),
    field "publishable" (.bool recon.publishable),
    field "merkleRoot" (rootJson merkle),
    field "fictionalDataNotice" (constant FICTIONAL_NOTICE),
    field "onchainClaimNotice" (constant ONCHAIN_NOTICE),
    field "assets" (.arr (recon.assets.map assetReconciliationJson))]
  { object,json := withNewline object }

def epochJson (cycle : CycleConfig) : Json :=
  .obj [
    field "epochId" (s cycle.epochId),
    field "epochStart" (s cycle.epochStart),
    field "epochEnd" (s cycle.epochEnd),
    field "startBlock" (s cycle.startBlock),
    field "endBlock" (s cycle.endBlock),
    field "snapshotBlock" (s cycle.snapshotBlock),
    field "finalizedBlock" (s cycle.finalizedBlock),
    field "confirmationDepth" (s cycle.confirmationDepth)]

def exclusionJson (e : ExcludedAddress) : Json :=
  .obj [
    field "address" (.str e.address),
    field "category" (.str (categoryText e.category)),
    field "reason" (.str e.reason),
    field "policyVersion" (.str e.policyVersion)]

def manifestAssetJson (a : AssetAllocation) : Json :=
  .obj [
    field "assetAddress" (.str a.asset.tokenAddress),
    field "ticker" (.str a.asset.ticker),
    field "name" (.str a.asset.name),
    field "decimals" (.num a.asset.decimals),
    field "acquired" (s a.acquired),
    field "participantPool" (s a.participantPool),
    field "strategicReserve" (s a.strategicReserve),
    field "allocated" (s a.allocated),
    field "distributionDust" (s a.distributionDust),
    field "entitlementCount" (.num a.entitlements.length)]

def sortExclusions (excluded : List ExcludedAddress) : List ExcludedAddress :=
  excluded.insertionSort (fun a b => List.le a.address b.address)

def sortAssets (assets : List AssetAllocation) : List AssetAllocation :=
  assets.insertionSort (fun a b => List.le a.asset.tokenAddress b.asset.tokenAddress)

/-- The manifest without its own hash. -/
def manifestBody (fixture : Fixture) (eligibility : EligibilityResolution)
    (allocation : AllocationResult) (merkle : Option MerkleResult)
    (allocationsContentHash : Text) : Json.Members :=
  let cycle := fixture.cycle
  [
    field "manifestSchemaVersion" (constant MANIFEST_SCHEMA_VERSION),
    field "leafSchemaVersion" (constant LEAF_SCHEMA_VERSION),
    field "cycleId" (s cycle.cycleId),
    field "chainId" (s cycle.chainId),
    field "bpsTokenAddress" (.str cycle.bpsTokenAddress),
    field "claimManagerAddress" (.str cycle.claimManagerAddress),
    field "economicsVersion" (.str ECON_VERSION),
    field "rewardPolicyVersion" (.str cycle.rewardPolicyVersion),
    field "epoch" (epochJson cycle),
    field "exclusions" (.arr ((sortExclusions fixture.excludedAddresses).map exclusionJson)),
    field "eligibilityPolicyVersion" (.str cycle.eligibilityPolicyVersion),
    field "termsVersion" (.str cycle.termsVersion),
    field "restrictedJurisdictionPolicyVersion" (.str cycle.restrictedJurisdictionPolicyVersion),
    field "totals" (.obj [
      field "totalEligibleSnapshotBalance" (s eligibility.totalEligibleSnapshotBalance),
      field "totalBaseTwab" (s eligibility.totalBaseTwab),
      field "totalEffectiveWeight" (s eligibility.totalEffectiveWeight)]),
    field "assets" (.arr ((sortAssets allocation.assets).map manifestAssetJson)),
    field "allocationRoundingPolicy" (constant ALLOCATION_ROUNDING_POLICY),
    field "reservePolicy" (constant RESERVE_POLICY),
    field "merkleRoot" (rootJson merkle),
    field "leafEncoding" (.arr (LEAF_ABI_TYPES.map (fun t => .str (abiTypeText t)))),
    field "leafOrder" (.arr (LEAF_ORDER.map constant)),
    field "allocationsContentHash" (.str allocationsContentHash),
    field "claimPeriod" (.obj [
      field "claimStart" (s cycle.claimStart),
      field "claimDeadline" (s cycle.claimDeadline)]),
    field "publishable" (.bool allocation.publishable),
    field "nonPublishableReason" (nullable .str allocation.nonPublishableReason),
    field "fictionalDataNotice" (constant FICTIONAL_NOTICE),
    field "onchainClaimNotice" (constant ONCHAIN_NOTICE)]

def buildManifest (keccak256 : Hash) (fixture : Fixture) (eligibility : EligibilityResolution)
    (allocation : AllocationResult) (merkle : Option MerkleResult)
    (allocationsContentHash : Text) : Artifact Json :=
  let body := manifestBody fixture eligibility allocation merkle allocationsContentHash
  let envelopeHash := keccakOfCanonical keccak256 (.obj body)
  let object := Json.obj (body ++ [field "envelopeHash" (.str envelopeHash)])
  { object,json := withNewline object }

end Artifacts
end BpsProtocol
