import BpsProtocol.CanaryOperator
import BpsProtocol.CanaryRecovery
import BpsProtocol.ViemVerify

/-! The recovery operator.
It keeps the sending and the verifying of the canary operator, and has its own way to connect, to
reconcile and to check before a send: the anchors of the completed steps are verified again, the
account of the tester has to be selected, and the head of the chain must not have reached the
expiry of the packet. -/
namespace BpsProtocol
namespace Canary
namespace Recovery

open MerkleProof Async
open ViemVerify (wordText)

/-- The object that a method returns; a wrong account is no halt. -/
structure Reply where
  outcome : Outcome
  wrongAccount : Bool := false

/-- An operator after binding, with the packaged object that it reads at run time. -/
structure Operator where
  R : Runtime
  canon : Canonical
  expiryEpoch : Option ℕ

def Canonical.operator (env : Env Canonical) (execDigest : Text) (c : Canonical) : Operator :=
  { R := c.runtime env execDigest
    canon := c
    expiryEpoch := expiryEpoch env.dateParse c.expiresAtUtc }

/-- The operator of a packet, as binding sets it up. -/
def boundOperator (env : Env Canonical) (x : Inputs) : Operator :=
  x.recoveryAuthorization.operator env x.recoveryPacket.header.recoveryAuthorizationDigest

namespace Operator

variable (O : Operator)

/-- `completedStepIsActionable` -/
def completedStepIsActionable : Bool :=
  O.canon.immediate.any fun t => t.signer = O.R.deployer || t.originalIndex ≤ 13

/-! ## Connecting -/

def wrongAccount (reason : String) : Reply := { outcome := refusal reason,wrongAccount := true }

def markConnected : Program Reply := do
  let s ← Prog.get
  if s.halted then return { outcome := { ok := false,halted := true,reason := s.haltReason } }
  else do
    let chain : ℕ ← req .chainId
    if chain ≠ 4663 then
      return { outcome := refusal "wrong chain (need 4663/0x1237); switch Rabby manually" }
    else do
      let accts : List Address ← req .accounts
      if accts = [] then return { outcome := refusal "no account exposed" }
      else if accts.head? ≠ some O.R.tester then
        return wrongAccount ("the TESTER account must be selected in Rabby (all six remaining " ++
          "transactions are tester transactions); switch accounts and connect again — nothing " ++
          "was sent")
      else do
        Prog.modify fun s => { s with connected := true }
        return { outcome := { ok := true } }

/-! ## The anchors -/

def anchorReason (anc : Anchor) (what : String) : String :=
  "anchor " ++ toString anc.originalIndex ++ " " ++ what

def checkAnchor (anc : Anchor) (tx : ChainTx) (rc : Receipt) : Except String Unit := do
  expect (tx.chainId.all (· = 4663)) (anchorReason anc "chainId")
  expect (rc.status = 1) (anchorReason anc "receipt not success")
  expect (tx.source = anc.signer ∧ tx.nonce = anc.nonce ∧ tx.value = 0) (anchorReason anc "fields")
  expect (O.R.keccak256 tx.input = anc.inputKeccak) (anchorReason anc "input keccak")

/-- The code of a contract that the anchor created. -/
def checkAnchorCode (anc : Anchor) (rc : Receipt) : Program (Except String Unit) :=
  match anc.createdAddress, anc.deployedRuntimeCodeHash with
  | some created, some codeHash => do
    let contract ← orFail (orThrow "invalid address" rc.contractAddress)
    if contract ≠ created then return .error (anchorReason anc "created address")
    else do
      let code : Bytes ← req (.getCode created)
      return expect (O.R.keccak256 code = codeHash) (anchorReason anc "runtime hash")
  | _, _ => pure (.ok ())

def verifyAnchor (anc : Anchor) : Program (Except String Unit) := do
  let tx : Option ChainTx ← req (.getTransactionByHash (wordText anc.txHash))
  let rc : Option Receipt ← req (.getTransactionReceipt (wordText anc.txHash))
  match tx, rc with
  | some tx, some rc =>
    match O.checkAnchor anc tx rc with
    | .error reason => return .error reason
    | .ok _ => O.checkAnchorCode anc rc
  | _, _ => return .error (anchorReason anc "tx/receipt not found")

/-- The pool and the position, as steps 11 to 13 left them. -/
def verifyPosition : Program (Except String Unit) := do
  let gp ← O.R.callAddr O.R.factory "getPool(address,address,uint24)"
    [encAddr O.R.lp.token0,encAddr O.R.lp.token1,encUint O.R.lp.feeTier]
  if gp ≠ O.R.pool then return .error "factory.getPool != bound pool"
  else do
    let owner ← O.R.callAddr O.R.npm "ownerOf(uint256)" [encUint O.canon.positionTokenId]
    if owner ≠ O.R.deployer then return .error "LP NFT owner != deployer"
    else do
      let pos ← O.R.call O.R.npm "positions(uint256)" [encUint O.canon.positionTokenId]
      let liq ← orFail (bigInt (Runtime.resultWord pos 7))
      return expect (liq = O.canon.positionLiquidity) "position liquidity != bound"

/-- `_verifyCompletedAnchors` -/
def verifyCompletedAnchors : Program (Except String Unit) := do
  if ← Runtime.assertChain then
    inOrder (O.canon.completedSteps.map O.verifyAnchor ++ [O.verifyPosition])
  else return .error "provider chain != 4663 at anchor verify"

def reconcile : Program Reply := do
  let s ← Prog.get
  if s.connected = false then return { outcome := refusal "not connected" }
  else if s.halted && s.uncertainSend.isNone then
    return { outcome := { ok := false,halted := true,reason := s.haltReason } }
  else
    match ← O.verifyCompletedAnchors with
    | .error reason => do
      let o ← halt ("recovery reconciliation: " ++ reason)
      return { outcome := o }
    | .ok _ => do
      let o ← O.R.reconcile
      return { outcome := o }

/-! ## Preconditions -/

/-- Nothing but the selected account may stand between the instance and its next step. -/
def atGate (s : Memory) : Bool :=
  !s.halted && s.uncertainSend.isNone && s.connected && s.reconciled && s.pending.isNone &&
    decide (s.current < O.R.steps.length)

def selectAgain : Reply :=
  wrongAccount ("the TESTER account must be selected in Rabby; switch accounts and re-run the " ++
    "pre-check — nothing was sent and nothing is halted")

/-- The refreshed deadline of a step. -/
def refreshOf (i : ℕ) : Option RefreshStep :=
  (O.canon.immediate[i]?).bind fun t =>
    O.canon.deadlineRefresh.steps.find? fun x => x.originalIndex = t.originalIndex

/-- The head of the chain against the expiry, and against the deadline in the calldata. -/
def checkHead (i : ℕ) (t : Step) (head : Head) : Check Unit := do
  refuseIf (O.expiryEpoch.all (· ≤ head.timestamp))
    "provider block timestamp is not strictly before the packet expiry"
  match O.refreshOf i with
  | none => .ok ()
  | some x => do
    let word ← orThrow "Cannot convert 0x to a BigInt"
      (deadlineWord t.dataOrInitCode x.wordOffsetBytes)
    refuseIf (word ≠ O.canon.deadlineRefresh.newDeadline)
      ("bound calldata deadline != bound packet expiry at original step " ++
        toString x.originalIndex)
    refuseIf (O.canon.deadlineRefresh.newDeadline ≤ head.timestamp)
      "provider block timestamp has passed the bound transaction deadline"

/-- What follows the preconditions of the canary operator. -/
def deadlineGate (ready : Runtime.Ready) : Program (Except Reply Runtime.Ready) := do
  let head : Head ← req .getBlockByNumber
  let t ← orFail (orThrow "undefined step" O.R.steps[ready.step]?)
  match ← runCheck (O.checkHead ready.step t head) with
  | .error reason => do
    let o ← halt reason
    return .error { outcome := o }
  | .ok _ => return .ok ready

def boundPreconditions (now : ℕ) : Program (Except Reply Runtime.Ready) := do
  match ← O.R.preconditions now with
  | .error pre => return .error { outcome := pre }
  | .ok ready => O.deadlineGate ready

def preconditions (now : ℕ) : Program (Except Reply Runtime.Ready) := do
  let s ← Prog.get
  if O.atGate s then do
    let accts : List Address ← req .accounts
    if accts.head? ≠ some O.R.tester then return .error selectAgain
    else O.boundPreconditions now
  else O.boundPreconditions now

/-- `sendCurrent` of the canary operator, which calls these preconditions. -/
def sendCurrent (now : ℕ) : Program Reply := do
  let s ← Prog.get
  if s.halted || s.uncertainSend.isSome then
    return { outcome := { refusal (s.haltReason.getD "uncertain send") with halted := true } }
  else if !(s.connected && s.reconciled) then
    return { outcome := refusal "states not ready (bound/connected/reconciled)" }
  else if s.pending.isSome then return { outcome := { ok := false,isPending := true } }
  else
    match ← O.preconditions now with
    | .error pre => return pre
    | .ok _ => do
      let o ← O.R.sendStep
      return { outcome := o }

/-! ## The application -/

def method : Method → Program Reply
  | .markConnected => O.markConnected
  | .preconditions now => do
    match ← O.preconditions now with
    | .error pre => return pre
    | .ok ready => return { outcome := { ok := true,step := some ready.step } }
  | .sendCurrent now => O.sendCurrent now
  | .verifyAfterHash txHash => do
    let o ← O.R.verifyAfterHash txHash
    return { outcome := o }
  | .reconcile => O.reconcile
  | .resolveUncertainSend txHash => do
    let o ← O.R.resolveUncertainSend txHash
    return { outcome := o }

def app : App Rpc Memory Storage Failure Reply Method := ⟨construct,O.method⟩

end Operator
end Recovery
end Canary
end BpsProtocol
