import BpsProtocol.CanaryExposure

/-! The recovery packet, as it is generated.
The last six steps of the reviewed plan are taken over with new deadlines: where a call carries
one it is decoded, the deadline replaced and the call encoded again, and the two texts are
compared byte for byte.  The packet is written if its exposure keeps the cap. -/
namespace BpsProtocol
namespace Canary
namespace Recovery

open Checked MerkleProof

/-! ## Inputs -/

/-- A step of the reviewed plan. -/
structure SourceTx where
  originalIndex : ℕ
  phase : Phase
  label : Text
  signer : Address
  nonce : ℕ
  target : Option Address
  value : Option ℕ
  dataOrInitCode : Bytes
  dataKeccak : Bytes32
  gasLimit : ℕ
  maxFeePerGas : ℕ
  maxPriorityFeePerGas : ℕ

/-- A step of the rehearsal, as far as its gas is read. -/
structure RehearsedTx where
  gasLimit : ℕ
  maxFeePerGas : ℕ

structure Rehearsal where
  immediateTransactions : List RehearsedTx
  allInclusiveGasWei : ℕ
  deployerWeth : ℕ
  testerWeth : ℕ
  lpUsage : LpUsage
  buyAccounting : BuyExpectation
  sellAccounting : SellExpectation
  lockAndWithdraw : LockExpectation
  dirtyTrackedTree : Bool

structure AnchorFile where
  completedSteps : List Anchor
  realizedGasWei : ℕ
  priors : Priors
  poolAddress : Address
  positionTokenId : ℕ

/-- The files that the generator reads. -/
structure Sources where
  rehearsal : Rehearsal
  v8 : List SourceTx
  policy : Policy
  anchorFile : AnchorFile
  snap : Snapshot
  selectedMicroUsd : ℕ

/-- A decoded argument; the router takes no others. -/
inductive Arg
  | uint (n : ℕ)
  | address (a : Address)
  deriving DecidableEq

def Arg.toBigInt : Arg → ℕ
  | .uint n => n
  | .address a => a

/-- The codec of the router's functions; it throws on calls that are none of them. -/
structure RouterAbi where
  decodeFunctionData : Bytes → Except String (Text × List Arg)
  encodeFunctionData : Text → List Arg → Except String Bytes

/-- The fields of a transaction that the execution digest covers. -/
structure Signable where
  originalIndex : ℕ
  chainId : ℕ
  signer : Address
  nonce : ℕ
  target : Option Address
  value : ℕ
  data : Bytes
  gasLimit : ℕ
  maxFeePerGas : ℕ
  maxPriorityFeePerGas : ℕ

/-- What the generator is given besides its files. -/
structure Tools where
  env : Env Canonical
  abi : RouterAbi
  toISOString : (ms : ℕ) → Text
  executionDigest : List Signable → Bytes32

/-! ## The refreshed deadline -/

def WINDOW : ℕ := 21600

/-- `DEADLINE_STEPS` -/
def deadlineSteps : List Text := [text "buyExactWethForBps",text "sellExactBpsForWeth"]

/-- The bytes at which two texts of one length differ. -/
def diffBytes (oldData newData : Bytes) : List ℕ :=
  (List.range oldData.length).filter fun i => oldData[i]? ≠ newData[i]?

structure Refreshed where
  newData : Bytes
  wordOffsetBytes : ℕ
  oldDataKeccak : Bytes32
  newDataKeccak : Bytes32

/-- `throw new Error(…)` unless the condition holds. -/
def demand (c : Prop) [Decidable c] (label : Text) (what : String) : Except String Unit :=
  expect c (String.ofList label ++ ": " ++ what)

/-- The last of the decoded arguments, and those before it. -/
def splitLast (args : List Arg) : Except String (List Arg × ℕ) :=
  match args.getLast? with
  | none => .error "Cannot read properties of undefined (reading 'length')"
  | some last => .ok (args.dropLast,last.toBigInt)

/-- The comparison of the texts, byte for byte: the start of the word that changed. -/
def changedWord (label : Text) (newDeadline : ℕ) (oldData newData : Bytes) : Except String ℕ := do
  demand (newData.length = oldData.length) label "calldata length changed"
  demand (newData.take 4 = oldData.take 4) label "selector changed"
  match diffBytes oldData newData with
  | [] => .error (String.ofList label ++ ": no bytes changed")
  | first::rest => do
    let wordOffsetBytes := 4+(first-4)/32*32
    let outside := (first::rest).find? fun bo => bo < wordOffsetBytes || wordOffsetBytes+32 ≤ bo
    demand (outside = none) label ("byte " ++ toString (outside.getD 0) ++
      " outside the single deadline word @" ++ toString wordOffsetBytes)
    let newWord ← orRevert "Cannot convert 0x to a BigInt" (deadlineWord newData wordOffsetBytes)
    let oldWord ← orRevert "Cannot convert 0x to a BigInt" (deadlineWord oldData wordOffsetBytes)
    demand (newWord = newDeadline ∧ oldWord = OLD_DEADLINE) label "deadline word mismatch"
    return wordOffsetBytes

def refreshDeadline (T : Tools) (newDeadline : ℕ) (label : Text) (oldData : Bytes) :
    Except String Refreshed := do
  let dec ← T.abi.decodeFunctionData oldData
  let old ← splitLast dec.2
  demand (old.2 = OLD_DEADLINE) label ("accepted source deadline " ++ toString old.2 ++
    " != bound v8 deadline " ++ toString OLD_DEADLINE)
  let newData ← T.abi.encodeFunctionData dec.1 (old.1 ++ [.uint newDeadline])
  let wordOffsetBytes ← changedWord label newDeadline oldData newData
  let dec2 ← T.abi.decodeFunctionData newData
  let new ← splitLast dec2.2
  demand (old.1 = new.1) label "non-deadline argument changed"
  demand (new.2 = newDeadline) label "decoded new deadline wrong"
  return ⟨newData,wordOffsetBytes,T.env.keccak256 oldData,T.env.keccak256 newData⟩

/-! ## The remaining transactions -/

/-- The gas ceilings of a reviewed step. -/
def SourceTx.ceilings (t : SourceTx) : Ceilings :=
  let reviewedCost := t.gasLimit*t.maxFeePerGas
  ⟨t.gasLimit*2,t.maxFeePerGas,PRIORITY_CEILING_WEI,reviewedCost,reviewedCost*5/4⟩

/-- A reviewed step at place `i` of the remaining ones, with its calldata. -/
def SourceTx.remaining (tester : Address) (t : SourceTx) (i : ℕ) (data : Bytes) : RawTx :=
  { originalIndex := t.originalIndex
    remainingIndex := i
    phase := t.phase
    label := t.label
    chainId := 4663
    signer := tester
    nonce := t.nonce
    target := t.target
    value := t.value.getD 0
    dataOrInitCode := data
    gasLimit := t.gasLimit
    maxFeePerGas := t.maxFeePerGas
    maxPriorityFeePerGas := t.maxPriorityFeePerGas
    gasCeilings := t.ceilings }

/-- One round of the map over the six steps: the transaction, and what was refreshed in it. -/
def remainingTx (T : Tools) (tester : Address) (newDeadline : ℕ) (x : SourceTx × ℕ) :
    Except String (RawTx × Option RefreshStep) := do
  let t := x.1
  demand (t.signer = tester) t.label "signer is not the tester"
  if deadlineSteps.any (· = t.label) then do
    let r ← refreshDeadline T newDeadline t.label t.dataOrInitCode
    return (t.remaining tester x.2 r.newData,some ⟨t.originalIndex,t.label,r.wordOffsetBytes,
      r.oldDataKeccak,r.newDataKeccak⟩)
  else do
    demand (T.env.keccak256 t.dataOrInitCode = t.dataKeccak) t.label
      "accepted calldata hash mismatch"
    return (t.remaining tester x.2 t.dataOrInitCode,none)

/-- The steps of the reviewed plan that remain. -/
def Sources.src6 (S : Sources) : List SourceTx := S.v8.filter fun t => 14 ≤ t.originalIndex

def Sources.newDeadline (S : Sources) : ℕ := S.snap.pinnedBlock.timestamp+WINDOW

/-- The remaining transactions, and the steps of them that were refreshed. -/
def remainingTxs (T : Tools) (S : Sources) : Except String (List RawTx × List RefreshStep) := do
  expect (S.src6.length = 6) ("expected 6 source txs, got " ++ toString S.src6.length)
  let txs ← S.src6.zipIdx.mapM (remainingTx T S.policy.wallets.tester S.newDeadline)
  expect (txs.map (fun x => x.1.originalIndex) = (List.range txs.length).map (·+14) ∧
    txs.map (fun x => x.1.nonce) = (List.range txs.length).map (·+2))
    "original index / tester nonce sequencing broken"
  let steps := txs.filterMap Prod.snd
  expect (steps.map RefreshStep.originalIndex = [15,17])
    "deadline refresh must cover exactly original steps 15 and 17"
  return (txs.map Prod.fst,steps)

/-! ## Exposure -/

structure Exposed where
  remainingPrincipalWei : ℕ
  remainingMaxGasWei : ℕ
  aggregateWei : ℕ

def exposure (S : Sources) (txs : List RawTx) : Except String Exposed := do
  let reviewed := (txs.map fun t => t.gasCeilings.reviewedMaxGasCostWei).sum
  let allImmediateReviewed :=
    (S.rehearsal.immediateTransactions.map fun t => t.gasLimit*t.maxFeePerGas).sum
  expect (allImmediateReviewed ≤ S.rehearsal.allInclusiveGasWei) "gas decomposition negative"
  let nonImmediateReviewed := S.rehearsal.allInclusiveGasWei-allImmediateReviewed
  let remainingMaxGasWei := reviewed*5/4+nonImmediateReviewed
  let remainingPrincipalWei := S.rehearsal.deployerWeth+S.rehearsal.testerWeth
  let aggregateWei := S.anchorFile.realizedGasWei+remainingPrincipalWei+remainingMaxGasWei
  expect (aggregateWei*S.selectedMicroUsd/10^18 ≤ 130000000)
    "recovery exposure exceeds $130 — NOT generating an executable packet"
  return ⟨remainingPrincipalWei,remainingMaxGasWei,aggregateWei⟩

/-! ## The packet -/

namespace RawTx

/-- `signable` of the generator. -/
def signable (t : RawTx) : Signable :=
  { originalIndex := t.originalIndex
    chainId := 4663
    signer := t.signer
    nonce := t.nonce
    target := t.target
    value := t.value
    data := t.dataOrInitCode
    gasLimit := t.gasLimit
    maxFeePerGas := t.maxFeePerGas
    maxPriorityFeePerGas := t.maxPriorityFeePerGas }

end RawTx

/-- The transaction that the operator recomputes the execution digest from. -/
def CanonicalTx.signable (t : CanonicalTx) : Signable :=
  { originalIndex := t.originalIndex
    chainId := 4663
    signer := t.signer
    nonce := t.nonce
    target := t.target
    value := t.value
    data := t.data
    gasLimit := t.gasLimit
    maxFeePerGas := t.maxFeePerGas
    maxPriorityFeePerGas := t.maxPriorityFeePerGas }

def recoveryPacket (T : Tools) (S : Sources) (txs : List RawTx) (steps : List RefreshStep)
    (e : Exposed) (recoveryAuthorizationDigest : Text) : Packet :=
  { header :=
      { chainId := 4663
        canary := true
        production := false
        scope := RECOVERY_SCOPE
        maxAllInclusiveExposureUsd := 130
        executable := true
        expiresAtUtc := T.toISOString (S.newDeadline*1000)
        wallets := S.policy.wallets
        fork := S.snap.pinnedBlock
        originalStepCount := 19
        priors := S.anchorFile.priors
        gasPolicy := ⟨PRIORITY_CEILING_WEI,true,true⟩
        deadlineRefresh := ⟨OLD_DEADLINE,S.newDeadline,true,steps⟩
        remainingExecutionDigest := T.executionDigest (txs.map RawTx.signable)
        recoveryAuthorizationDigest := recoveryAuthorizationDigest }
    safetyFlags := ⟨true,true,true,true⟩
    completedSteps := S.anchorFile.completedSteps
    remainingCount := 6
    allSignersTester := true
    immediateTransactions := txs
    realizedGasWei := S.anchorFile.realizedGasWei
    remainingPrincipalWei := e.remainingPrincipalWei
    remainingMaxGasWei := e.remainingMaxGasWei
    aggregateWei := e.aggregateWei
    positionTokenId := S.anchorFile.positionTokenId
    poolAddress := S.anchorFile.poolAddress
    lpUsage := S.rehearsal.lpUsage
    buyAccounting := S.rehearsal.buyAccounting
    sellAccounting := S.rehearsal.sellAccounting
    lockAndWithdraw := S.rehearsal.lockAndWithdraw
    dirtyTrackedTree := S.rehearsal.dirtyTrackedTree }

/-- The three files that the generator writes. -/
structure Generated where
  packet : Packet
  policy : Policy
  authorization : Canonical

def generate (T : Tools) (S : Sources) : Except String Generated := do
  let remaining ← remainingTxs T S
  let e ← exposure S remaining.1
  let undigested := recoveryPacket T S remaining.1 remaining.2 e []
  let errors := buildErrors T.env.dateParse undigested S.policy S.snap
  expect (errors = []) ("recovery canonical build failed: " ++ String.intercalate "; " errors)
  let object := canonicalObject undigested S.policy S.snap
  let digest := T.env.digestOf object
  return ⟨recoveryPacket T S remaining.1 remaining.2 e digest,
    { S.policy with recoveryAuthorizationDigest := digest },object⟩

/-- What the operator loads: the three files and the snapshot. -/
def Generated.inputs (T : Tools) (S : Sources) (g : Generated) (noDuplicateKeys : Bool) :
    Inputs :=
  { recoveryPacket := g.packet
    recoveryPolicy := g.policy
    recoverySnapshot := S.snap
    recoveryAuthorization := g.authorization
    noDuplicateKeys := noDuplicateKeys
    signablesDigest := fun txs => T.executionDigest (txs.map CanonicalTx.signable) }

end Recovery
end Canary
end BpsProtocol
