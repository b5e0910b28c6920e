import BpsProtocol.RecoveryGenerate
import BpsProtocol.Lib.BinarySearch

/-! The anchors of the completed steps, as they are captured from the chain.
The transactions of steps 3 to 13 are not taken from a report: for each nonce of the deployer the
block is searched in which the count of its transactions passes the nonce, and what is found there
is compared with the accepted plan. -/
namespace BpsProtocol
namespace Canary
namespace Recovery

open Checked MerkleProof BinarySearch

/-! ## The chain -/

structure MinedTx where
  hash : Bytes32
  chainId : Option ℕ
  source : Address
  nonce : ℕ
  target : Option Address
  value : ℕ
  input : Bytes
  deriving DecidableEq

structure MinedReceipt where
  status : ℕ
  contractAddress : Option Address
  logs : List Log
  blockNumber : ℕ
  gasUsed : ℕ
  effectiveGasPrice : ℕ

/-- What the provider answers; it stands at one head while the anchors are captured. -/
structure Provider where
  chainId : ℕ
  blockNumber : ℕ
  transactionCount : Address → (block : ℕ) → ℕ
  latestCount : Address → ℕ
  pendingCount : Address → ℕ
  block : ℕ → List MinedTx
  header : ℕ → BlockRef
  transactionByHash : Bytes32 → Option MinedTx
  transactionReceipt : Bytes32 → Option MinedReceipt
  code : Address → Bytes
  call : Address → Bytes → Bytes

/-! ## Inputs -/

/-- A step of the accepted plan, as far as the capture reads it. -/
structure PlannedTx where
  originalIndex : ℕ
  label : Text
  signer : Address
  nonce : ℕ
  target : Option Address
  dataOrInitCode : Bytes
  dataKeccak : Bytes32
  amount : Option ℕ
  predictedCreationAddress : Option Address

structure CaptureFiles where
  keccak256 : Hash
  policy : Policy
  step1 : PlannedTx
  step2 : PlannedTx
  deployedRuntimeCodeHashes : Slot → Bytes32
  lpUsage : LpUsage
  poolSqrtAfter : ℕ
  v7 : List PlannedTx
  v7Pool : Address
  v7RecoveryAuthorizationDigest : Bytes32

def ANCHOR1 : Bytes32 := 0x36acf3e3752e0cfc2688c280680c4a9a100e3fcb2520bf41ae723f1a05612e2c

def ANCHOR2 : Bytes32 := 0x4569523ae523090ee7b19644380b4cecb33d34d19db1cd2f52c677a724a2d758

def STEP2_BLOCK : ℕ := 18395614

def REPORTED_MINT : Bytes32 := 0x09ee1c10862f669461bf2596b24ca6d9331db48a84c4c928fc3eb2ad53a3a3f8

/-- `slotByNonce` -/
def slotByNonce : ℕ → Option Slot
  | 5 => some .claimManager
  | 6 => some .rialtoAdapter
  | 7 => some .coordinator
  | 8 => some .stockVault
  | 9 => some .uniswapAdapter
  | 10 => some .tradeRouter
  | _ => none

namespace CaptureFiles

variable (F : CaptureFiles)

def deployer : Address := F.policy.wallets.deployer

def npm : Address := F.policy.infrastructure.nonfungiblePositionManager

def factory : Address := F.policy.infrastructure.uniswapV3Factory

def sig0 (sig : String) : Bytes32 := F.keccak256 (utf8 sig)

/-- `v7ByOrig.get` -/
def v7ByOrig (originalIndex : ℕ) : Option PlannedTx :=
  (F.v7.filter fun t => t.originalIndex = originalIndex).getLast?

end CaptureFiles

/-! ## The search -/

/-- The smallest block up to `hi` in which the count of the deployer's transactions is past the
nonce, and the transaction there. -/
def findTxByNonce (P : Provider) (deployer : Address) (nonce lo hi : ℕ) : Check MinedTx :=
  let a := search (fun block => nonce+1 ≤ P.transactionCount deployer block) lo hi
  orThrow s!"nonce {nonce} tx not found in transition block {a}"
    ((P.block a).find? fun t => t.source = deployer && t.nonce = nonce)

/-! ## One step -/

/-- The first log with the topic, among those that are looked at. -/
def firstLog (looked : Log → Bool) (topic : Bytes32) : List Log → Check (Option Log)
  | [] => .ok none
  | lg::logs =>
    if looked lg then do
      let t ← orThrow "Cannot read properties of undefined (reading 'toLowerCase')" lg.topics[0]?
      if t = topic then return some lg else firstLog looked topic logs
    else firstLog looked topic logs

/-- The address in a topic of a log. -/
def topicAddress (lg : Log) (i : ℕ) : Check Address := do
  let t ← orThrow "Cannot read properties of undefined (reading 'slice')" lg.topics[i]?
  return topicAddr t

/-- `!!lg && …` -/
def logHolds (lg : Option Log) (holds : Log → Check Bool) : Check Bool :=
  match lg with
  | none => .ok false
  | some lg => holds lg

/-- The conditions of a conjunction from the left, as far as they hold. -/
def allHold : List (Check Bool) → Check Bool
  | [] => .ok true
  | c::cs => do if ← c then allHold cs else return false

def equals {α : Type} [DecidableEq α] (x : Check α) (y : α) : Check Bool := do
  let a ← x
  return a = y

/-- What the postcondition of a step leaves for its anchor. -/
structure StepFinding where
  errors : List String
  runtimeCodeHash : Option Bytes32 := none
  positionTokenId : Option ℕ := none

def deployFinding (F : CaptureFiles) (P : Provider) (label : String) (slot : Slot)
    (src : PlannedTx) (rc : MinedReceipt) : Check StepFinding := do
  let created ← orThrow "Address \"null\" is invalid." rc.contractAddress
  let predicted ← orThrow "Address \"undefined\" is invalid." src.predictedCreationAddress
  let codeHash := F.keccak256 (P.code created)
  return {
    errors := errIf (created ≠ predicted) (label ++ ": created != predicted") ++
      errIf (codeHash ≠ F.deployedRuntimeCodeHashes slot) (label ++ ": runtime hash")
    runtimeCodeHash := some codeHash }

def approvalFinding (F : CaptureFiles) (label : String) (src : PlannedTx) (rc : MinedReceipt) :
    Check StepFinding := do
  let lg ← firstLog (fun _ => true) (F.sig0 "Approval(address,address,uint256)") rc.logs
  let ok ← logHolds lg fun lg => allHold
    [equals (topicAddress lg 1) F.deployer,equals (topicAddress lg 2) F.npm,do
      let amount ← bigInt lg.data
      equals (orThrow "Cannot convert undefined to a BigInt" src.amount) amount]
  return { errors := errIf (ok = false) (label ++ ": Approval(owner,spender,amount)") }

def poolFinding (F : CaptureFiles) (label : String) (rc : MinedReceipt) : Check StepFinding := do
  let lg ← firstLog (fun l => l.address = F.factory)
    (F.sig0 "PoolCreated(address,address,uint24,int24,address)") rc.logs
  let ok ← logHolds lg fun lg =>
    equals (addressOf (((lg.data.drop 32).drop 12).take 20)) F.v7Pool
  return { errors := errIf (ok = false) (label ++ ": PoolCreated -> expected pool") }

def initializeFinding (F : CaptureFiles) (label : String) (rc : MinedReceipt) :
    Check StepFinding := do
  let lg ← firstLog (fun l => l.address = F.v7Pool) (F.sig0 "Initialize(uint160,int24)") rc.logs
  let ok ← logHolds lg fun lg => equals (bigInt (lg.data.take 32)) F.lpUsage.sqrtPriceX96
  return { errors := errIf (ok = false) (label ++ ": Initialize sqrtPriceX96") }

def mintFinding (F : CaptureFiles) (label : String) (tx : MinedTx) (rc : MinedReceipt) :
    Check StepFinding := do
  let inc ← firstLog (fun l => l.address = F.npm)
    (F.sig0 "IncreaseLiquidity(uint256,uint128,uint256,uint256)") rc.logs
  let liquidity ← logHolds inc fun lg =>
    equals (bigInt (lg.data.take 32)) F.lpUsage.poolLiquidityAfter
  let xf ← firstLog (fun l => l.address = F.npm && l.topics.length = 4)
    (F.sig0 "Transfer(address,address,uint256)") rc.logs
  let received ← logHolds xf fun lg => equals (topicAddress lg 2) F.deployer
  return {
    errors :=
      errIf (tx.hash ≠ REPORTED_MINT) (label ++ ": discovered mint hash != reported hash") ++
      errIf (liquidity = false) (label ++ ": IncreaseLiquidity liquidity") ++
      errIf (received = false) (label ++ ": LP NFT to deployer")
    positionTokenId := xf.bind fun lg => lg.topics[3]?.map Fin.val }

def typeFinding (F : CaptureFiles) (P : Provider) (label : String) (nonce : ℕ) (src : PlannedTx)
    (tx : MinedTx) (rc : MinedReceipt) : Check StepFinding :=
  match slotByNonce nonce with
  | some slot => deployFinding F P label slot src rc
  | none =>
    if nonce-2 = 9 ∨ nonce-2 = 10 then approvalFinding F label src rc
    else if nonce-2 = 11 then poolFinding F label rc
    else if nonce-2 = 12 then initializeFinding F label rc
    else if nonce-2 = 13 then mintFinding F label tx rc
    else return { errors := [] }

/-- A captured anchor beside what is said of it. -/
structure Captured where
  anchor : Anchor
  slot : Option Slot
  positionTokenId : Option ℕ
  errors : List String
  blockNumber : ℕ

/-- The destination of a transaction against the plan; an absent one is not read as an address. -/
def destinationErrors (label : String) (src : PlannedTx) (tx : MinedTx) : Check (List String) :=
  match src.target with
  | none => .ok (errIf (tx.target ≠ none) (label ++ ": destination vs v7 canonical"))
  | some target => do
    let actual ← orThrow "Address \"null\" is invalid." tx.target
    return errIf (actual ≠ target) (label ++ ": destination vs v7 canonical")

/-- The round of the loop for one nonce, once its transaction is found. -/
def checkStep (F : CaptureFiles) (P : Provider) (nonce : ℕ) (tx : MinedTx) : Check Captured := do
  let src ← orThrow "Cannot read properties of undefined (reading 'label')"
    (F.v7ByOrig (nonce-2))
  let label := s!"step{nonce-2}(" ++ String.ofList src.label ++ ")"
  let destination ← destinationErrors label src tx
  let rc ← orThrow "Cannot read properties of null (reading 'contractAddress')"
    (P.transactionReceipt tx.hash)
  let finding ← typeFinding F P label nonce src tx rc
  return {
    anchor :=
      { originalIndex := nonce-2
        label := src.label
        txHash := tx.hash
        signer := tx.source
        nonce := nonce
        createdAddress := rc.contractAddress
        inputKeccak := src.dataKeccak
        actualGasCostWei := rc.gasUsed*rc.effectiveGasPrice
        deployedRuntimeCodeHash := finding.runtimeCodeHash }
    slot := slotByNonce nonce
    positionTokenId := finding.positionTokenId
    errors := errIf (rc.status ≠ 1) (label ++ ": receipt missing/failed") ++
      errIf (tx.chainId.any (· ≠ 4663)) (label ++ ": chainId") ++
      errIf (tx.source ≠ src.signer ∨ tx.nonce ≠ src.nonce)
        (label ++ ": sender/nonce vs v7 canonical") ++ destination ++
      errIf (tx.value ≠ 0) (label ++ ": value != 0") ++
      errIf (tx.input ≠ src.dataOrInitCode ∨ F.keccak256 tx.input ≠ src.dataKeccak)
        (label ++ ": calldata vs v7 canonical") ++ finding.errors
    blockNumber := rc.blockNumber }

/-- The loop over the nonces: the next transaction is searched from the block of the last. -/
def captureSteps (F : CaptureFiles) (P : Provider) : (nonces : List ℕ) → (lo : ℕ) →
    Check (List Captured)
  | [], _ => .ok []
  | nonce::nonces, lo => do
    let tx ← findTxByNonce P F.deployer nonce lo P.blockNumber
    let x ← checkStep F P nonce tx
    let xs ← captureSteps F P nonces x.blockNumber
    return x::xs

/-! ## The first two steps -/

/-- `verifyCreationAnchor`; without a transaction or a receipt there is no anchor. -/
def verifyCreationAnchor (F : CaptureFiles) (P : Provider) (label : String) (txHash : Bytes32)
    (expNonce : ℕ) (src : PlannedTx) (slot : Slot) : Check (Option Captured × List String) :=
  match P.transactionByHash txHash, P.transactionReceipt txHash with
  | some tx, some rc => do
    let created ← orThrow "Address \"null\" is invalid." rc.contractAddress
    let codeHash := F.keccak256 (P.code created)
    let errors := errIf (rc.status ≠ 1) (label ++ ": tx/receipt missing or failed") ++
      errIf (tx.chainId.any (· ≠ 4663)) (label ++ ": chainId") ++
      errIf (tx.source ≠ F.deployer ∨ tx.nonce ≠ expNonce ∨ tx.target ≠ none ∨ tx.value ≠ 0)
        (label ++ ": sender/nonce/creation/value") ++
      errIf (tx.input ≠ src.dataOrInitCode ∨ F.keccak256 tx.input ≠ src.dataKeccak)
        (label ++ ": calldata") ++
      errIf (codeHash ≠ F.deployedRuntimeCodeHashes slot) (label ++ ": deployed runtime hash")
    let anchor : Anchor :=
      { originalIndex := expNonce-2
        label := text label
        txHash := txHash
        signer := F.deployer
        nonce := expNonce
        createdAddress := some created
        inputKeccak := src.dataKeccak
        actualGasCostWei := rc.gasUsed*rc.effectiveGasPrice
        deployedRuntimeCodeHash := some codeHash }
    return (some ⟨anchor,some slot,none,errors,rc.blockNumber⟩,errors)
  | _, _ => .ok (none,[label ++ ": tx/receipt missing or failed"])

/-! ## The capture -/

/-- The live counts of the wallets. -/
def countErrors (F : CaptureFiles) (P : Provider) : List String :=
  let tester := F.policy.wallets.tester
  errIf (P.chainId ≠ 4663) s!"provider chainId {P.chainId} != 4663" ++
    errIf (P.latestCount F.deployer ≠ 16 ∨ P.pendingCount F.deployer ≠ 16)
      s!"deployer nonce {P.latestCount F.deployer}/{P.pendingCount F.deployer} != 16/16" ++
    errIf (P.latestCount tester ≠ 2 ∨ P.pendingCount tester ≠ 2) "tester nonce != 2/2"

/-- `completedContracts`: a later anchor of a slot replaces an earlier one. -/
def completedContracts (xs : List Captured) (slot : Slot) : Option Completed :=
  xs.reverse.findSome? fun x =>
    if x.slot = some slot then
      match x.anchor.createdAddress, x.anchor.deployedRuntimeCodeHash with
      | some address, some codeHash => some ⟨address,codeHash⟩
      | _, _ => none
    else none

/-- The pool and the position as the thirteenth step left them. -/
def positionErrors (F : CaptureFiles) (P : Provider) (mintTokenId : Option ℕ) :
    Check (List String × ℕ × ℕ) := do
  let view := fun (target : Address) (sig : String) (args : Bytes) =>
    P.call target (selector F.keccak256 sig ++ args)
  let gp := view F.factory "getPool(address,address,uint24)" (encAddr F.lpUsage.token0 ++
    encAddr F.lpUsage.token1 ++ encUint F.policy.economics.feeTier)
  let pool ← addressOf (gp.drop (gp.length-20))
  let sqrt ← bigInt ((view F.v7Pool "slot0()" []).take 32)
  let tokenId ← orThrow "Cannot convert null to a BigInt" mintTokenId
  let own := view F.npm "ownerOf(uint256)" (encUint tokenId)
  let owner ← addressOf (own.drop (own.length-20))
  let liquidity ← bigInt (((view F.npm "positions(uint256)" (encUint tokenId)).drop (7*32)).take 32)
  return (errIf (pool ≠ F.v7Pool) "factory.getPool != expected pool" ++
    errIf (sqrt ≠ F.poolSqrtAfter) "pool slot0 sqrtPrice != rehearsal post-mint" ++
    errIf (owner ≠ F.deployer) "LP NFT owner != deployer" ++
    errIf (liquidity ≠ F.lpUsage.poolLiquidityAfter) "position liquidity != expected",
    tokenId,liquidity)

/-- The addresses whose code the snapshot keeps. -/
def dependencyAddresses (i : Infrastructure) : List Address :=
  [i.weth,i.uniswapV3Factory,i.nonfungiblePositionManager,i.swapRouter02,i.rialtoRegistry,
    i.nvdaStockToken]

/-- The two files of a capture; it fails with every error that was noted, or throws. -/
def capture (F : CaptureFiles) (P : Provider) :
    Check (Except (List String) (AnchorFile × Snapshot)) := do
  let a1 ← verifyCreationAnchor F P "step1" ANCHOR1 3 F.step1 .canaryToken
  let a2 ← verifyCreationAnchor F P "step2" ANCHOR2 4 F.step2 .lockingVault
  let steps ← captureSteps F P ((List.range 11).map (·+5)) (STEP2_BLOCK+1)
  let completed := a1.1.toList ++ a2.1.toList ++ steps
  let mintTokenId := (steps.filterMap Captured.positionTokenId).getLast?
  let position ← positionErrors F P mintTokenId
  let contracts := completedContracts completed
  let fails := countErrors F P ++ a1.2 ++ a2.2 ++ steps.flatMap Captured.errors ++
    errIf (completed.length ≠ 13) s!"expected 13 completed anchors, got {completed.length}" ++
    position.1 ++
    errIf ((allSlots.filter fun slot => (contracts slot).isSome).length ≠ 8)
      "expected 8 completed contracts"
  let pinned ← orThrow "invalid block" (if P.blockNumber < 3 then none else some (P.blockNumber-3))
  if fails ≠ [] then return .error fails
  else
    return .ok (
      { completedSteps := completed.map Captured.anchor
        realizedGasWei := (completed.map fun x => x.anchor.actualGasCostWei).sum
        priors := ⟨⟨V5_ZIP_SHA,V5_RAD_EXACT⟩,⟨V6_ZIP_SHA,V6_RAD⟩,
          ⟨V7_ZIP_SHA,F.v7RecoveryAuthorizationDigest⟩,⟨V8_ZIP_SHA,V8_RAD⟩⟩
        poolAddress := F.v7Pool
        positionTokenId := position.2.1 },
      { pinnedBlock := { P.header pinned with number := pinned }
        expectedNonces := ⟨16,2⟩
        completedContracts := contracts
        positionTokenId := position.2.1
        positionLiquidity := position.2.2
        externalCodeHashes := (dependencyAddresses F.policy.infrastructure).map fun a =>
          ⟨a,F.keccak256 (P.code a),(P.code a).length⟩ })

end Recovery
end Canary
end BpsProtocol
