import BpsProtocol.Ledger
import BpsProtocol.Lib.Machine
import BpsProtocol.MerkleProof
import BpsProtocol.Ownable

/-! `GuardedSettlementExecutor`: single-use settlements of opaque router calldata inside a
configured envelope.  The called router may do anything that accounts can do while the
executor runs: call tokens, and call those functions of the executor itself that take no
reentrancy lock.  `executeSettlement` and `recover` do take it. -/
namespace BpsProtocol
namespace GuardedExecutor

open Checked Mapping Erc20 MerkleProof Ownable

abbrev Bytes4 := Fin (2^32)

instance neZero_bytes4 : NeZero (2^32) := ⟨by norm_num⟩

def robinhoodChainId : ℕ := 4663
def swapRouterFeatureId : ℕ := 2
def maxPlatformFeeBps : ℕ := 5
def maxSlippageBps : ℕ := 100
def maxPriceDeviationBps : ℕ := 100
def canaryMaxSellWeth : ℕ := 10000000000000000
def maxDeadlineHorizonSec : ℕ := 300
def deadAddress : Address := 0xdead

structure Deployment where
  here : Address
  weth : Address
  stockToken : Address
  registry : Address
  keccak256 : Hash
  nonzero : 0 ∉ [weth,stockToken,registry]
  distinct : [weth,stockToken,registry].Nodup

/-- `GUARD_DOMAIN` -/
def Deployment.guardDomain (d : Deployment) : Bytes32 :=
  d.keccak256 ("BPS-GUARDED-SETTLEMENT/1".toList.map fun c => UInt8.ofNat c.toNat)

structure SettlementParams where
  sellToken : Address
  buyToken : Address
  sellAmount : ℕ
  minBuyAmount : ℕ
  target : Address
  selector : Bytes4
  callData : Bytes
  platformFeeBps : ℕ
  integratorFeePresent : Bool
  slippageBps : ℕ
  nonce : Uint256
  deadline : ℕ
  intentDigest : Bytes32
  calldataHash : Bytes32

inductive Event
  | approvedRouterCodeSet (codeHash : Bytes32) (selector : Bytes4)
  | tokenPairAllowedSet (sellToken buyToken : Address) (allowed : Bool)
  | maxSellAmountSet (sellToken : Address) (maxAmount : ℕ)
  | priceGuardSet (priceGuard : Address)
  | settlementExecuted (intentDigest : Bytes32) (nonce : Uint256)
      (router sellToken buyToken : Address) (sellAmount received : ℕ) (selector : Bytes4)
  | tokensRecovered (token target : Address) (amount : ℕ)

inductive Error
  | zeroAddress
  | invalidController
  | notAContract (target : Address)
  | wrongChain (chainId : ℕ)
  | priceGuardUnset
  | pairNotAllowed
  | wrongTokenOrDirection
  | zeroAmount
  | amountCapUnset
  | amountExceedsCap
  | capCeilingExceeded
  | feeTooHigh
  | integratorFeeForbidden
  | slippageTooHigh
  | calldataHashMismatch
  | digestMismatch
  | missingOrExpiredDeadline
  | deadlineTooFar
  | nonceUsed
  | digestUsed
  | zeroCodeHash
  | zeroSelector
  | routerCodeUnset
  | configIncomplete
  | selectorUnapproved
  | codeHashMismatch (actual approved : Bytes32)
  | ownerOfReverted
  | zeroRouter
  | routerMismatch (target current : Address)
  | invalidRouterTarget (router : Address)
  | priceGuardReverted
  | allowanceNotZeroBefore (current : ℕ)
  | routerCallFailed
  | minBuyNotMet (minimum received : ℕ)
  | allowanceNotCleared (remaining : ℕ)
  | enforcedPause
  | expectedPause
  | panic
  | ownable (e : Ownable.Error)
  | token (e : Erc20.Error)
  | noSuchCall
  deriving DecidableEq

structure Storage where
  ownership : Ownership
  paused : Bool
  priceGuard : Address
  approvedRouterCodeHash : Bytes32
  approvedSelector : Bytes4
  maxSellAmount : Address → ℕ
  pairAllowed : Address → Address → Bool
  consumedDigest : Bytes32 → Bool
  usedNonce : Uint256 → Bool
  events : List Event

/-- Deployed paused, with nothing configured. -/
def Storage.deployed (controller : Address) : Storage :=
  ⟨⟨controller,0⟩,true,0,0,0,fun _ => 0,fun _ _ => false,fun _ => false,fun _ => false,[]⟩

/-- What the executor reads of the chain: its id, the registry, which may revert, the code
at each address, and what a price guard's view answers. -/
structure Chain where
  chainId : ℕ
  ownerOf : ℕ → Option Address
  code : Address → Bytes
  check : (priceGuard sellToken buyToken : Address) →
    (sellAmount minBuyAmount maxDeviationBps : ℕ) → Bool

structure World where
  timestamp : ℕ
  tokens : Ledger
  chain : Chain
  executor : Storage

def onlyOwner (e : Storage) (sender : Address) : Except Error Unit :=
  (checkOwner e.ownership sender).mapError .ownable

def Storage.emit (e : Storage) (event : Event) : Storage := { e with events := event::e.events }

def setApprovedRouterCode (e : Storage) (sender : Address) (codeHash : Bytes32)
    (selector : Bytes4) : Except Error Storage := do
  onlyOwner e sender
  revertIf (codeHash = 0) .zeroCodeHash
  revertIf (selector = 0) .zeroSelector
  return { e with approvedRouterCodeHash := codeHash, approvedSelector := selector }.emit
    (.approvedRouterCodeSet codeHash selector)

def setTokenPairAllowed (d : Deployment) (e : Storage) (sender sellToken buyToken : Address)
    (allowed : Bool) : Except Error Storage := do
  onlyOwner e sender
  revertIf (sellToken ≠ d.weth ∨ buyToken ≠ d.stockToken) .wrongTokenOrDirection
  return { e with pairAllowed := set₂ e.pairAllowed sellToken buyToken allowed }.emit
    (.tokenPairAllowedSet sellToken buyToken allowed)

def setMaxSellAmount (d : Deployment) (e : Storage) (sender sellToken : Address)
    (maxAmount : ℕ) : Except Error Storage := do
  onlyOwner e sender
  revertIf (sellToken ≠ d.weth) .wrongTokenOrDirection
  revertIf (canaryMaxSellWeth < maxAmount) .capCeilingExceeded
  return { e with maxSellAmount := set e.maxSellAmount sellToken maxAmount }.emit
    (.maxSellAmountSet sellToken maxAmount)

def setPriceGuard (chain : Chain) (e : Storage) (sender priceGuard : Address) :
    Except Error Storage := do
  onlyOwner e sender
  revertIf (priceGuard = 0) .zeroAddress
  revertIf ((chain.code priceGuard).length = 0) (.notAContract priceGuard)
  return { e with priceGuard }.emit (.priceGuardSet priceGuard)

def pause (e : Storage) (sender : Address) : Except Error Storage := do
  onlyOwner e sender
  revertIf (e.paused = true) .enforcedPause
  return { e with paused := true }

def unpause (d : Deployment) (e : Storage) (sender : Address) : Except Error Storage := do
  onlyOwner e sender
  revertIf (e.priceGuard = 0 ∨ e.approvedRouterCodeHash = 0 ∨ e.approvedSelector = 0 ∨
    e.maxSellAmount d.weth = 0 ∨ e.pairAllowed d.weth d.stockToken = false) .configIncomplete
  revertIf (e.paused = false) .expectedPause
  return { e with paused := false }

/-- The inherited ownership functions; only `transferOwnership` is overridden. -/
def changeOwnership (d : Deployment) (e : Storage) (sender : Address) (call : Ownable.Call) :
    Except Error Storage := do
  match call with
  | .transferOwnership newOwner =>
    onlyOwner e sender
    revertIf (newOwner = 0 ∨ newOwner = deadAddress ∨ newOwner = d.here) .invalidController
    let ownership ← (call.exec sender e.ownership).mapError .ownable
    return { e with ownership }
  | _ =>
    let ownership ← (call.exec sender e.ownership).mapError .ownable
    return { e with ownership }

/-- The functions of the executor that take no reentrancy lock. -/
inductive AdminCall
  | setApprovedRouterCode (codeHash : Bytes32) (selector : Bytes4)
  | setTokenPairAllowed (sellToken buyToken : Address) (allowed : Bool)
  | setMaxSellAmount (sellToken : Address) (maxAmount : ℕ)
  | setPriceGuard (priceGuard : Address)
  | pause
  | unpause
  | ownership (call : Ownable.Call)

def AdminCall.exec (d : Deployment) (chain : Chain) (e : Storage) (sender : Address) :
    AdminCall → Except Error Storage
  | .setApprovedRouterCode codeHash selector =>
    GuardedExecutor.setApprovedRouterCode e sender codeHash selector
  | .setTokenPairAllowed sellToken buyToken allowed =>
    GuardedExecutor.setTokenPairAllowed d e sender sellToken buyToken allowed
  | .setMaxSellAmount sellToken maxAmount =>
    GuardedExecutor.setMaxSellAmount d e sender sellToken maxAmount
  | .setPriceGuard priceGuard => GuardedExecutor.setPriceGuard chain e sender priceGuard
  | .pause => GuardedExecutor.pause e sender
  | .unpause => GuardedExecutor.unpause d e sender
  | .ownership call => changeOwnership d e sender call

def recover (d : Deployment) (w : World) (sender token : Address) (amount : ℕ) :
    Except Error World := do
  onlyOwner w.executor sender
  let bal := (w.tokens token).balanceOf d.here
  let amt := if bal < amount then bal else amount
  let owner := w.executor.ownership.owner
  let tokens ← (w.tokens.transfer token d.here owner amt).mapError .token
  return { w with tokens, executor := w.executor.emit (.tokensRecovered token owner amt) }

/-- `_leadingSelector` -/
def leadingSelector (data : Bytes) : Bytes4 :=
  Fin.ofNat (2^32) ((data.take 4).foldl (fun n b => n*256+b.toNat) 0)

/-- `_digestFor`: every field is one word, the selector left-aligned in its own. -/
def digestFor (d : Deployment) (chainId : ℕ) (p : SettlementParams) : Bytes32 :=
  d.keccak256 <|
    wordBytes d.guardDomain ++ Bytes.bigEndian 32 chainId ++ wordBytes (addressWord d.here) ++
    wordBytes (addressWord d.registry) ++ Bytes.bigEndian 32 swapRouterFeatureId ++
    wordBytes (addressWord p.target) ++
    (Bytes.bigEndian 4 p.selector.val ++ List.replicate 28 0) ++
    wordBytes (addressWord p.sellToken) ++ wordBytes (addressWord p.buyToken) ++
    Bytes.bigEndian 32 p.sellAmount ++ Bytes.bigEndian 32 p.minBuyAmount ++
    Bytes.bigEndian 32 p.platformFeeBps ++ Bytes.bigEndian 32 p.slippageBps ++
    wordBytes (addressWord d.here) ++ wordBytes p.nonce ++ Bytes.bigEndian 32 p.deadline ++
    wordBytes p.calldataHash

/-- The checks on the configuration and on the request itself. -/
def checkRequest (d : Deployment) (w : World) (p : SettlementParams) : Except Error Unit := do
  let e := w.executor
  revertIf (w.chain.chainId ≠ robinhoodChainId) (.wrongChain w.chain.chainId)
  revertIf (e.priceGuard = 0) .priceGuardUnset
  revertIf (e.approvedRouterCodeHash = 0 ∨ e.approvedSelector = 0) .routerCodeUnset
  revertIf (p.sellToken ≠ d.weth ∨ p.buyToken ≠ d.stockToken) .wrongTokenOrDirection
  revertIf (e.pairAllowed d.weth d.stockToken = false) .pairNotAllowed
  revertIf (p.sellAmount = 0 ∨ p.minBuyAmount = 0) .zeroAmount
  let cap := e.maxSellAmount d.weth
  revertIf (cap = 0) .amountCapUnset
  revertIf (cap < p.sellAmount) .amountExceedsCap
  revertIf (maxPlatformFeeBps < p.platformFeeBps) .feeTooHigh
  revertIf (p.integratorFeePresent = true) .integratorFeeForbidden
  revertIf (maxSlippageBps < p.slippageBps) .slippageTooHigh
  revertIf (p.deadline = 0 ∨ p.deadline < w.timestamp) .missingOrExpiredDeadline
  revertIf (maxDeadlineHorizonSec < p.deadline-w.timestamp) .deadlineTooFar
  revertIf (p.callData.length < 4) .calldataHashMismatch
  revertIf (d.keccak256 p.callData ≠ p.calldataHash) .calldataHashMismatch
  revertIf (leadingSelector p.callData ≠ p.selector) .selectorUnapproved
  revertIf (p.selector ≠ e.approvedSelector) .selectorUnapproved

/-- The registry lock and the code lock. -/
def lockRouter (d : Deployment) (w : World) (p : SettlementParams) : Except Error Address := do
  let router ← orRevert .ownerOfReverted (w.chain.ownerOf swapRouterFeatureId)
  revertIf (router = 0) .zeroRouter
  revertIf (p.target ≠ router) (.routerMismatch p.target router)
  revertIf ((w.chain.code router).length = 0) (.notAContract router)
  revertIf (router ∈ [d.registry,d.weth,d.stockToken,d.here,w.executor.priceGuard])
    (.invalidRouterTarget router)
  let targetCodeHash := d.keccak256 (w.chain.code router)
  revertIf (targetCodeHash ≠ w.executor.approvedRouterCodeHash)
    (.codeHashMismatch targetCodeHash w.executor.approvedRouterCodeHash)
  return router

/-- What accounts other than the executor may do at any time, also during a settlement. -/
inductive Outside
  | token (asset : Address) (call : Erc20.Call)
  | admin (sender : Address) (call : AdminCall)
  | chain (chain : Chain)

def outside (d : Deployment) (w : World) : Outside → Except Error World
  | .token asset call => do
    revertIf (call.sender ∈ [0,d.here]) .noSuchCall
    let tokens ← (w.tokens.call asset call).mapError .token
    return { w with tokens }
  | .admin sender call => do
    revertIf (sender ∈ [0,d.here]) .noSuchCall
    let executor ← call.exec d w.chain w.executor sender
    return { w with executor }
  | .chain chain => .ok { w with chain }

/-- What the router's call does: steps that may each fail, and at last success or a revert. -/
structure Behaviour where
  steps : List Outside
  succeeds : Bool

/-- The marks of a settlement, set before the router is called. -/
def Storage.consume (e : Storage) (digest : Bytes32) (nonce : Uint256) : Storage :=
  { e with
    consumedDigest := set e.consumedDigest digest true
    usedNonce := set e.usedNonce nonce true }

/-- Exact allowance, the opaque call, the received amount, and the allowance cleared. -/
def settle (d : Deployment) (b : Behaviour) (w : World) (p : SettlementParams)
    (digest : Bytes32) (router : Address) : Except Error (ℕ × World) := do
  let stockBefore := (w.tokens d.stockToken).balanceOf d.here
  let existing := (w.tokens d.weth).allowance d.here router
  revertIf (existing ≠ 0) (.allowanceNotZeroBefore existing)
  let tokens ← (w.tokens.approve d.weth d.here router p.sellAmount).mapError .token
  revertIf (b.succeeds = false) .routerCallFailed
  let w := Machine.run (outside d) { w with tokens } b.steps
  let received ← sub .panic ((w.tokens d.stockToken).balanceOf d.here) stockBefore
  revertIf (received < p.minBuyAmount) (.minBuyNotMet p.minBuyAmount received)
  let tokens ← (w.tokens.approve d.weth d.here router 0).mapError .token
  let remaining := (tokens d.weth).allowance d.here router
  revertIf (remaining ≠ 0) (.allowanceNotCleared remaining)
  return (received,{ w with
    tokens
    executor := w.executor.emit (.settlementExecuted digest p.nonce router d.weth d.stockToken
      p.sellAmount received p.selector) })

/-- The received amount is returned beside the next world. -/
def executeSettlement (d : Deployment) (b : Behaviour) (w : World) (sender : Address)
    (p : SettlementParams) : Except Error (ℕ × World) := do
  onlyOwner w.executor sender
  revertIf (w.executor.paused = true) .enforcedPause
  checkRequest d w p
  let digest := digestFor d w.chain.chainId p
  revertIf (digest ≠ p.intentDigest) .digestMismatch
  revertIf (w.executor.consumedDigest digest = true) .digestUsed
  revertIf (w.executor.usedNonce p.nonce = true) .nonceUsed
  let router ← lockRouter d w p
  revertIf (w.chain.check w.executor.priceGuard d.weth d.stockToken p.sellAmount p.minBuyAmount
    maxPriceDeviationBps = false) .priceGuardReverted
  settle d b { w with executor := w.executor.consume digest p.nonce } p digest router

inductive Tx
  | elapse (seconds : ℕ)
  | outside (step : Outside)
  | recover (sender token : Address) (amount : ℕ)
  | executeSettlement (sender : Address) (params : SettlementParams) (router : Behaviour)

def exec (d : Deployment) (w : World) : Tx → Except Error World
  | .elapse seconds => .ok { w with timestamp := w.timestamp+seconds }
  | .outside step => outside d w step
  | .recover sender token amount => recover d w sender token amount
  | .executeSettlement sender params router => do
    let (_,w') ← executeSettlement d router w sender params
    return w'

/-- The executor was just deployed at a fresh address; donations may already sit there. -/
structure Initial (d : Deployment) (w : World) : Prop where
  here_ne_zero : d.here ≠ 0
  executor : ∃ controller ∉ [0,deadAddress,d.here,d.weth,d.stockToken,d.registry],
    w.executor = .deployed controller
  closed : w.tokens.Closed d.here

abbrev Reachable (d : Deployment) : World → Prop :=
  Machine.Reachable (Initial d) (exec d)

end GuardedExecutor
end BpsProtocol
