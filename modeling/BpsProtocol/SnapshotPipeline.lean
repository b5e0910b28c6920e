import BpsProtocol.ClaimManager
import BpsProtocol.Merkle

/-! `runSnapshotPipeline`: from lock events and pinned reads to entitlements and proofs.
The chain reader is a record of read functions, each of which may reject.  The pipeline
keeps its numbered stages; every guard throws its own error. -/
namespace BpsProtocol
namespace SnapshotPipeline

open Checked Shared HexText LeafEncoding Merkle

structure LockCreatedRecord where
  account : Text
  lockId : ℤ
  blockNumber : ℤ
  logIndex : ℕ
  deriving DecidableEq

structure LockWithdrawnRecord where
  account : Text
  lockId : ℤ
  blockNumber : ℤ
  logIndex : ℕ
  deriving DecidableEq

structure SnapshotRequest where
  chainId : ℤ
  lockingVault : Text
  claimManager : Text
  snapshotBlock : ℤ
  expectedBlockHash : Text
  enumerationStartBlock : ℤ
  distributionAsset : Text
  distributionAmount : ℤ
  cycleId : ℤ
  claimStart : ℤ
  claimDeadline : ℤ

structure Header where
  hash : Text
  timestamp : ℤ

/-- Read-only chain access; `none` where the promise rejects. -/
structure ChainReader where
  chainId : Option ℤ
  block : ℤ → Option (Option Header)
  vaultHasCodeAt : ℤ → Option Bool
  lockCreated : ℤ → ℤ → Option (List LockCreatedRecord)
  lockWithdrawn : ℤ → ℤ → Option (List LockWithdrawnRecord)
  lockCountAt : Text → ℤ → Option ℤ
  positionWeightAt : Text → ℤ → ℤ → ℤ → Option ℤ
  leafFor : ℤ → Text → Text → ℤ → ℤ → Option Text
  syncedThrough : Option ℤ

structure ParticipantWeight where
  address : Text
  lockCount : Text
  effectiveWeight : Text
  deriving DecidableEq

/-- A participant's entitlement without its proof, as the snapshot lists it. -/
structure SnapshotEntitlement where
  address : Text
  effectiveWeight : Text
  entitlement : Text
  leaf : Bytes32
  deriving DecidableEq

structure ParticipantEntitlement extends SnapshotEntitlement where
  proof : List Bytes32
  deriving DecidableEq

/-- The digests of the inputs that the snapshot carries. -/
structure InputDigests where
  request : Bytes32
  lockCreatedRecords : Bytes32
  lockWithdrawnRecords : Bytes32

structure CanonicalSnapshot where
  chainId : Text
  snapshotBlock : Text
  snapshotBlockHash : Text
  snapshotBlockTimestamp : Text
  lockingVault : Text
  claimManager : Text
  enumerationStartBlock : Text
  indexerSyncedThrough : Text
  candidateCount : ℕ
  zeroWeightExcludedCount : ℕ
  includedParticipantCount : ℕ
  participants : List ParticipantWeight
  totalEffectiveWeight : Text
  distributionAsset : Text
  distributionAmount : Text
  cycleId : Text
  entitlements : List SnapshotEntitlement
  entitlementTotal : Text
  dust : Text
  leafEncoding : List AbiType
  merkleRoot : Bytes32
  inputDigests : InputDigests

structure ProofBundle where
  chainId : Text
  cycleId : Text
  claimManager : Text
  distributionAsset : Text
  merkleRoot : Bytes32
  canonicalSnapshotDigest : Bytes32
  participants : List ParticipantEntitlement

/-- What `keccakOfCanonical` is applied to; the request and the records as the members of
their objects. -/
inductive Artifact
  | request (members : List Text)
  | records (members : List (List Text))
  | snapshot (s : CanonicalSnapshot)
  | proofBundle (b : ProofBundle)

structure UnsignedPublication where
  chainId : Text
  to_ : Text
  arguments : ClaimManager.Publication
  snapshotBlock : Text
  snapshotBlockHash : Text

structure OnchainLeafParity where
  checked : ℕ
  matched : ℕ
  deriving DecidableEq

structure SnapshotRunResult where
  snapshot : CanonicalSnapshot
  proofBundle : ProofBundle
  unsignedPublication : UnsignedPublication
  canonicalSnapshotDigest : Bytes32
  proofBundleDigest : Bytes32
  onchainLeafParity : OnchainLeafParity
  observedChainHead : Text

inductive SnapshotPipelineError
  | badChainId (value : ℤ)
  | badBlock (value : ℤ)
  | zeroDistribution (value : ℤ)
  | badCycle (value : ℤ)
  | badBlockHash
  | badStartBlock
  | badClaimWindow
  | chainIdMismatch (observed requested : ℤ)
  | blockNotFound (block : ℤ)
  | blockHashMismatch (observed expected : Text)
  | indexerBehind (synced block : ℤ)
  | incompleteCoverage
  | vaultNotDeployed
  | malformedAccount (index : ℕ) (account : Text)
  | malformedRecord (index : ℕ)
  | negativeWeight (account : Text) (lockId : ℤ)
  | noParticipants
  | dustOnlyDistribution
  | overAllocation
  | proofSelfVerifyFailed (address : Text)
  | leafParityMismatch (address : Text)
  | reader
  | library
  | shared (e : ProofOfDistributionError)
  deriving DecidableEq

/-- `/^0x[0-9a-f]{64}$/i` -/
def isBlockHash : Text → Bool
  | '0' :: x :: digits => (x = 'x' || x = 'X') && digits.length = 64 && digits.all isDigit
  | _ => false

def normalize (value : Text) (field : String) : Except SnapshotPipelineError Text :=
  (normalizeAddress value field.toList).mapError .shared

def decimal (value : ℤ) (field : String) : Except SnapshotPipelineError Text :=
  (toDecimalString value field.toList).mapError .shared

def validateRequestShape (req : SnapshotRequest) : Except SnapshotPipelineError Unit := do
  revertIf (req.chainId ≤ 0) (.badChainId req.chainId)
  revertIf (req.snapshotBlock ≤ 0) (.badBlock req.snapshotBlock)
  revertIf (req.distributionAmount ≤ 0) (.zeroDistribution req.distributionAmount)
  revertIf (req.cycleId ≤ 0) (.badCycle req.cycleId)
  revertIf (isBlockHash req.expectedBlockHash = false) .badBlockHash
  let _ ← normalize req.lockingVault "lockingVault"
  let _ ← normalize req.claimManager "claimManager"
  let _ ← normalize req.distributionAsset "distributionAsset"
  revertIf (req.enumerationStartBlock < 0 ∨ req.snapshotBlock < req.enumerationStartBlock)
    .badStartBlock
  revertIf (req.claimDeadline ≤ req.claimStart) .badClaimWindow

structure EnumerationResult where
  candidates : List Text
  excludedAfterSnapshot : ℕ
  recordsSeen : ℕ

/-- `unique.set(key, true)`: the keys of the map in order of insertion. -/
def insertKey (unique : List Text) (key : Text) : List Text :=
  if key ∈ unique then unique else unique ++ [key]

/-- The loop over the records from index `i` on. -/
def scanRecords (snapshotBlock : ℤ) (i : ℕ) (unique : List Text) (excludedAfterSnapshot : ℕ) :
    List LockCreatedRecord → Except SnapshotPipelineError (List Text × ℕ)
  | [] => .ok (unique,excludedAfterSnapshot)
  | r::rest => do
    revertIf (isHexAddress r.account = false) (.malformedAccount i r.account)
    revertIf (r.blockNumber < 0 ∨ r.lockId < 0) (.malformedRecord i)
    if snapshotBlock < r.blockNumber then
      scanRecords snapshotBlock (i+1) unique (excludedAfterSnapshot+1) rest
    else do
      let account ← normalize r.account "address"
      scanRecords snapshotBlock (i+1) (insertKey unique account) excludedAfterSnapshot rest

/-- The keys of a map differ, so a comparison that never answers zero sorts them the same. -/
def sortCandidates (unique : List Text) : List Text :=
  unique.insertionSort (fun a b => List.le (toLowerCase a) (toLowerCase b))

def enumerateCandidates (records : List LockCreatedRecord) (snapshotBlock : ℤ) :
    Except SnapshotPipelineError EnumerationResult := do
  let (unique,excludedAfterSnapshot) ← scanRecords snapshotBlock 0 [] 0 records
  return {
    candidates := sortCandidates unique
    excludedAfterSnapshot
    recordsSeen := records.length }

/-- The chain guards; they return the pinned header and the synchronized height. -/
def checkChain (reader : ChainReader) (req : SnapshotRequest) :
    Except SnapshotPipelineError (Header × ℤ) := do
  let chainId ← orRevert .reader reader.chainId
  revertIf (chainId ≠ req.chainId) (.chainIdMismatch chainId req.chainId)
  let found ← orRevert .reader (reader.block req.snapshotBlock)
  let header ← orRevert (.blockNotFound req.snapshotBlock) found
  revertIf (toLowerCase header.hash ≠ toLowerCase req.expectedBlockHash)
    (.blockHashMismatch header.hash req.expectedBlockHash)
  let synced ← orRevert .reader reader.syncedThrough
  revertIf (synced < req.snapshotBlock) (.indexerBehind synced req.snapshotBlock)
  let codeAtStart ← orRevert .reader (reader.vaultHasCodeAt (req.enumerationStartBlock-1))
  revertIf (codeAtStart = true) .incompleteCoverage
  let codeAtPin ← orRevert .reader (reader.vaultHasCodeAt req.snapshotBlock)
  revertIf (codeAtPin = false) .vaultNotDeployed
  return (header,synced)

/-- The loop over `count` lock ids from `lockId` on. -/
def sumWeights (reader : ChainReader) (account : Text) (ts snapshotBlock : ℤ) :
    ℕ → ℤ → ℤ → Except SnapshotPipelineError ℤ
  | 0, _, weight => .ok weight
  | count+1, lockId, weight => do
    let w ← orRevert .reader (reader.positionWeightAt account lockId ts snapshotBlock)
    revertIf (w < 0) (.negativeWeight account lockId)
    sumWeights reader account ts snapshotBlock count (lockId+1) (weight+w)

structure Weighing where
  participants : List ParticipantWeight
  zeroWeight : ℕ
  totalWeight : ℤ

def weighAccount (reader : ChainReader) (ts snapshotBlock : ℤ) (s : Weighing) (account : Text) :
    Except SnapshotPipelineError Weighing := do
  let lockCount ← orRevert .reader (reader.lockCountAt account snapshotBlock)
  let weight ← sumWeights reader account ts snapshotBlock lockCount.toNat 0 0
  if weight = 0 then
    return { s with zeroWeight := s.zeroWeight+1 }
  else do
    let count ← decimal lockCount "lockCount"
    let effectiveWeight ← decimal weight "effectiveWeight"
    return {
      participants := s.participants ++ [⟨account,count,effectiveWeight⟩]
      zeroWeight := s.zeroWeight
      totalWeight := s.totalWeight+weight }

/-- The loop over the candidates. -/
def weighAll (reader : ChainReader) (ts snapshotBlock : ℤ) :
    Weighing → List Text → Except SnapshotPipelineError Weighing
  | s, [] => .ok s
  | s, account::rest => do
    let s ← weighAccount reader ts snapshotBlock s account
    weighAll reader ts snapshotBlock s rest

structure Entitled where
  address : Text
  weight : ℤ
  amount : ℤ
  deriving DecidableEq

/-- The loop over the participants: the floor of each share, zero shares left out. -/
def entitle (distributionAmount totalWeight : ℤ) :
    List ParticipantWeight → Except SnapshotPipelineError (List Entitled)
  | [] => .ok []
  | p::rest => do
    let w := bigInt p.effectiveWeight
    let amount ← (mulDivFloor distributionAmount w totalWeight).mapError .shared
    let entitled ← entitle distributionAmount totalWeight rest
    return if amount = 0 then entitled else ⟨p.address,w,amount⟩::entitled

def entitlementTotal (entitled : List Entitled) : ℤ := (entitled.map Entitled.amount).sum

section Publication

variable {T : Type} (S : StandardMerkleTree T) (keccak256 : Hash)

def valueOf (req : SnapshotRequest) (manager asset : Text) (e : Entitled) : List Text :=
  [toString10 req.chainId,manager,toString10 req.cycleId,e.address,asset,toString10 e.amount]

def fieldsOf (req : SnapshotRequest) (manager asset : Text) (e : Entitled) : LeafFields where
  chainId := req.chainId
  claimManager := manager
  cycleId := req.cycleId
  wallet := e.address
  asset := asset
  amount := e.amount

/-- The leaf and the proof of the entitlement at index `i`, verified by the second library. -/
def prove (req : SnapshotRequest) (manager asset : Text) (tree : T) (e : Entitled) (i : ℕ) :
    Except SnapshotPipelineError ParticipantEntitlement := do
  let leaf ← orRevert .library (S.leafHash tree (valueOf req manager asset e))
  let proof ← orRevert .library (S.getProofAt tree i)
  let verified ← orRevert .library
    (viemVerifyRaw keccak256 (fieldsOf req manager asset e) proof (S.root tree))
  revertIf (verified = false) (.proofSelfVerifyFailed e.address)
  let effectiveWeight ← decimal e.weight "weight"
  let entitlement ← decimal e.amount "entitlement"
  return { address := e.address,effectiveWeight,entitlement,leaf,proof }

/-- The leaf of every entitlement is that of the manager at the pinned block. -/
def checkParity (reader : ChainReader) (req : SnapshotRequest) (asset : Text) :
    List ParticipantEntitlement → Except SnapshotPipelineError Unit
  | [] => .ok ()
  | p::rest => do
    let onchain ← orRevert .reader (reader.leafFor req.cycleId p.address asset
      (bigInt p.entitlement) req.snapshotBlock)
    revertIf (toLowerCase onchain ≠ '0' :: 'x' :: write 64 p.leaf.val)
      (.leafParityMismatch p.address)
    checkParity reader req asset rest

def recordMembers (account : Text) (lockId blockNumber : ℤ) (logIndex : ℕ) :
    Except SnapshotPipelineError (List Text) := do
  let account ← normalize account "address"
  return [account,toString10 lockId,toString10 blockNumber,toString10 logIndex]

variable (keccakOfCanonical : Artifact → Bytes32)

def inputDigests (req : SnapshotRequest) (vault manager asset : Text)
    (created : List LockCreatedRecord) (withdrawn : List LockWithdrawnRecord) :
    Except SnapshotPipelineError InputDigests := do
  let createdMembers ← created.mapM (fun r =>
    recordMembers r.account r.lockId r.blockNumber r.logIndex)
  let withdrawnMembers ← withdrawn.mapM (fun r =>
    recordMembers r.account r.lockId r.blockNumber r.logIndex)
  return {
    request := keccakOfCanonical (.request [toString10 req.chainId,vault,manager,
      toString10 req.snapshotBlock,toLowerCase req.expectedBlockHash,
      toString10 req.enumerationStartBlock,asset,toString10 req.distributionAmount,
      toString10 req.cycleId,toString10 req.claimStart,toString10 req.claimDeadline])
    lockCreatedRecords := keccakOfCanonical (.records createdMembers)
    lockWithdrawnRecords := keccakOfCanonical (.records withdrawnMembers) }

/-- A number that an unsigned argument of `bits` bits can hold. -/
def uintArgument (bits : ℕ) (n : ℤ) : Option ℕ :=
  if 0 ≤ n ∧ n < 2^bits then some n.toNat else none

/-- `encodeFunctionData` of `publishCycle`, by its typed arguments; no value where viem
throws. -/
def encodePublishCycle (req : SnapshotRequest) (asset : Text)
    (merkleRoot allocationsContentHash manifestEnvelopeHash : Bytes32) :
    Option ClaimManager.Publication := do
  let cycleId ← uint256 req.cycleId
  let claimStart ← uintArgument 64 req.claimStart
  let claimDeadline ← uintArgument 64 req.claimDeadline
  let _ ← viemAddress keccak256 asset
  let token ← addressOf asset
  let amount ← uintArgument 256 req.distributionAmount
  return {
    cycleId,merkleRoot,allocationsContentHash,manifestEnvelopeHash,claimStart,claimDeadline
    assets := [token]
    fundedAmounts := [amount] }

structure Settlement where
  weighing : Weighing
  entitled : List Entitled
  root : Bytes32
  withProofs : List ParticipantEntitlement

/-- Stages 2 to 5: pinned weights, entitlements, tree and proofs, on-chain leaf parity. -/
def settle (reader : ChainReader) (req : SnapshotRequest) (manager asset : Text) (ts : ℤ)
    (candidates : List Text) : Except SnapshotPipelineError Settlement := do
  let weighing ← weighAll reader ts req.snapshotBlock ⟨[],0,0⟩ candidates
  revertIf (weighing.participants.length = 0 ∨ weighing.totalWeight = 0) .noParticipants
  let entitled ← entitle req.distributionAmount weighing.totalWeight weighing.participants
  revertIf (entitled.length = 0) .dustOnlyDistribution
  revertIf (req.distributionAmount < entitlementTotal entitled) .overAllocation
  let tree ← orRevert .library (S.of (entitled.map (valueOf req manager asset)) LEAF_ABI_TYPES)
  let withProofs ← entitled.zipIdx.mapM (fun e =>
    prove S keccak256 req manager asset tree e.1 e.2)
  checkParity reader req asset withProofs
  return { weighing,entitled,root := S.root tree,withProofs }

/-- Stages 6 and 7: canonical artifacts and the unsigned publication payload. -/
def assemble (req : SnapshotRequest) (vault manager asset : Text) (header : Header) (synced : ℤ)
    (candidates : List Text) (s : Settlement) (inputDigests : InputDigests) :
    Except SnapshotPipelineError SnapshotRunResult := do
  let totalEffectiveWeight ← decimal s.weighing.totalWeight "totalEffectiveWeight"
  let total ← decimal (entitlementTotal s.entitled) "entitlementTotal"
  let dust ← decimal (req.distributionAmount-entitlementTotal s.entitled) "dust"
  let snapshot : CanonicalSnapshot := {
    chainId := toString10 req.chainId
    snapshotBlock := toString10 req.snapshotBlock
    snapshotBlockHash := toLowerCase header.hash
    snapshotBlockTimestamp := toString10 header.timestamp
    lockingVault := vault
    claimManager := manager
    enumerationStartBlock := toString10 req.enumerationStartBlock
    indexerSyncedThrough := toString10 req.snapshotBlock
    candidateCount := candidates.length
    zeroWeightExcludedCount := s.weighing.zeroWeight
    includedParticipantCount := s.weighing.participants.length
    participants := s.weighing.participants
    totalEffectiveWeight
    distributionAsset := asset
    distributionAmount := toString10 req.distributionAmount
    cycleId := toString10 req.cycleId
    entitlements := s.withProofs.map ParticipantEntitlement.toSnapshotEntitlement
    entitlementTotal := total
    dust
    leafEncoding := LEAF_ABI_TYPES
    merkleRoot := s.root
    inputDigests }
  let canonicalSnapshotDigest := keccakOfCanonical (.snapshot snapshot)
  let proofBundle : ProofBundle := {
    chainId := snapshot.chainId
    cycleId := snapshot.cycleId
    claimManager := manager
    distributionAsset := asset
    merkleRoot := s.root
    canonicalSnapshotDigest
    participants := s.withProofs }
  let proofBundleDigest := keccakOfCanonical (.proofBundle proofBundle)
  let arguments ← orRevert .library (encodePublishCycle keccak256 req asset s.root
    canonicalSnapshotDigest proofBundleDigest)
  return {
    snapshot,proofBundle
    unsignedPublication := {
      chainId := snapshot.chainId
      to_ := manager
      arguments
      snapshotBlock := snapshot.snapshotBlock
      snapshotBlockHash := snapshot.snapshotBlockHash }
    canonicalSnapshotDigest,proofBundleDigest
    onchainLeafParity := ⟨s.withProofs.length,s.withProofs.length⟩
    observedChainHead := toString10 synced }

def runSnapshotPipeline (reader : ChainReader) (req : SnapshotRequest) :
    Except SnapshotPipelineError SnapshotRunResult := do
  validateRequestShape req
  let vault ← normalize req.lockingVault "address"
  let manager ← normalize req.claimManager "address"
  let asset ← normalize req.distributionAsset "address"
  let (header,synced) ← checkChain reader req
  let created ← orRevert .reader
    (reader.lockCreated req.enumerationStartBlock req.snapshotBlock)
  let withdrawn ← orRevert .reader
    (reader.lockWithdrawn req.enumerationStartBlock req.snapshotBlock)
  let enumeration ← enumerateCandidates created req.snapshotBlock
  let settlement ← settle S keccak256 reader req manager asset header.timestamp
    enumeration.candidates
  let digests ← inputDigests keccakOfCanonical req vault manager asset created withdrawn
  assemble keccak256 keccakOfCanonical req vault manager asset header synced
    enumeration.candidates settlement digests

end Publication

end SnapshotPipeline
end BpsProtocol
