import BpsProtocol.Lib.Machine
import BpsProtocol.StockVault

/-! `RialtoStockAcquisitionAdapter`: one settlement quote, executed for the vault against the
router that the registry names at that moment.  The router is a parameter that may do
anything to the tokens and to the chain.  The adapter keeps no storage. -/
namespace BpsProtocol
namespace RialtoAdapter

open Checked Mapping Erc20

/-- The registry's feature of the active taker-submitted swap router. -/
def swapRouterFeatureId : ℕ := 2

/-- The immutable configuration, with what the constructor checked of it. -/
structure Deployment where
  here : Address
  stockAcquisitionVault : Address
  weth : Address
  routerRegistry : Address
  nonzero : 0 ∉ [stockAcquisitionVault,weth,routerRegistry]
  distinct : [weth,stockAcquisitionVault,routerRegistry].Nodup

inductive Error
  | notVault
  | stockNotApproved (stockToken : Address)
  | invalidStock
  | zeroAmountIn
  | zeroMinimumOutput
  | expiredDeadline
  | malformedExecutionData
  | expiredQuote
  | emptyCallData
  | ownerOfReverted
  | routerFeatureUninitialized
  | staleOrWrongRouter (quoted current : Address)
  | notAContract (target : Address)
  | invalidRouterTarget (target : Address)
  | fundingMismatch (expected actual : ℕ)
  | routerCallFailed
  | minimumStockOutNotMet (minimum observed : ℕ)
  | residualWethInAdapter (before afterBalance : ℕ)
  | residualStockInAdapter (before afterBalance : ℕ)
  | approvalNotCleared (remaining : ℕ)
  | panic
  | token (e : Erc20.Error)
  deriving DecidableEq

structure RialtoExecution where
  target : Address
  callData : List UInt8
  quoteDeadline : ℕ

/-- What the adapter reads of the chain: the registry, which may revert, and where code is. -/
structure Chain where
  ownerOf : ℕ → Option Address
  hasCode : Address → Bool

/-- The settlement router: what its call does with some calldata, or its failure. -/
abbrev Router := (callData : List UInt8) → Ledger × Chain → Option (Ledger × Chain)

/-- A low-level call that the adapter makes with a payload. -/
structure LowLevelCall where
  target : Address
  callData : List UInt8
  deriving DecidableEq

/-- The registry target lock. -/
def lockRouter (a : Deployment) (chain : Chain) (stockToken : Address) (ex : RialtoExecution) :
    Except Error Address := do
  let router ← orRevert .ownerOfReverted (chain.ownerOf swapRouterFeatureId)
  revertIf (router = 0) .routerFeatureUninitialized
  revertIf (ex.target ≠ router) (.staleOrWrongRouter ex.target router)
  revertIf (chain.hasCode router = false) (.notAContract router)
  revertIf (router ∈ [a.routerRegistry,a.stockAcquisitionVault,a.here,a.weth,stockToken])
    (.invalidRouterTarget router)
  return router

/-- `_executeQuote`: approve the router for the input, call it with the unmodified quote,
clear the approval, and compare balances with those before.  The call is written down. -/
def executeQuote (a : Deployment) (call : Router) (stockToken : Address)
    (wethAmountIn minStockOut adapterWethBefore adapterStockBefore : ℕ) (router : Address)
    (ex : RialtoExecution) (tokens : Ledger) (others : Chain × List LowLevelCall) :
    Except Error (ℕ × (Ledger × (Chain × List LowLevelCall))) := do
  let tokens ← (tokens.approve a.weth a.here router wethAmountIn).mapError .token
  let (tokens,chain) ← orRevert .routerCallFailed (call ex.callData (tokens,others.1))
  let tokens ← (tokens.approve a.weth a.here router 0).mapError .token
  let acquired ← sub .panic ((tokens stockToken).balanceOf a.here) adapterStockBefore
  revertIf (acquired < minStockOut) (.minimumStockOutNotMet minStockOut acquired)
  let adapterWethAfter := (tokens a.weth).balanceOf a.here
  revertIf (adapterWethAfter ≠ adapterWethBefore)
    (.residualWethInAdapter adapterWethBefore adapterWethAfter)
  let remaining := (tokens a.weth).allowance a.here router
  revertIf (remaining ≠ 0) (.approvalNotCleared remaining)
  return (acquired,(tokens,(chain,⟨router,ex.callData⟩::others.2)))

/-- `executionData` is `none` where the bytes do not decode. -/
def acquireStock (a : Deployment) (vault : StockVault.Deployment) (call : Router)
    (timestamp : ℕ) (sender stockToken : Address) (wethAmountIn minStockOut deadline : ℕ)
    (executionData : Option RialtoExecution) (tokens : Ledger)
    (others : Chain × List LowLevelCall) :
    Except Error (ℕ × (Ledger × (Chain × List LowLevelCall))) := do
  revertIf (sender ≠ a.stockAcquisitionVault) .notVault
  revertIf (vault.isApprovedStockToken stockToken = false) (.stockNotApproved stockToken)
  revertIf (stockToken = a.weth) .invalidStock
  revertIf (wethAmountIn = 0) .zeroAmountIn
  revertIf (minStockOut = 0) .zeroMinimumOutput
  revertIf (deadline < timestamp) .expiredDeadline
  let ex ← orRevert .malformedExecutionData executionData
  revertIf (ex.quoteDeadline < timestamp) .expiredQuote
  revertIf (ex.callData.length < 4) .emptyCallData
  let router ← lockRouter a others.1 stockToken ex
  let adapterWethBefore := (tokens a.weth).balanceOf a.here
  let adapterStockBefore := (tokens stockToken).balanceOf a.here
  let tokens ←
    (tokens.transferFrom a.weth a.here a.stockAcquisitionVault a.here wethAmountIn).mapError .token
  let pulled ← sub .panic ((tokens a.weth).balanceOf a.here) adapterWethBefore
  revertIf (pulled ≠ wethAmountIn) (.fundingMismatch wethAmountIn pulled)
  let (acquired,tokens,others) ← executeQuote a call stockToken wethAmountIn minStockOut
    adapterWethBefore adapterStockBefore router ex tokens others
  let tokens ← (tokens.transfer stockToken a.here a.stockAcquisitionVault acquired).mapError .token
  let adapterStockAfter := (tokens stockToken).balanceOf a.here
  revertIf (adapterStockAfter ≠ adapterStockBefore)
    (.residualStockInAdapter adapterStockBefore adapterStockAfter)
  return (acquired,(tokens,others))

/-- The vault and the adapter as they are wired. -/
structure System where
  vault : StockVault.Deployment
  adapter : Deployment
  adapter_here : vault.acquisitionAdapter = adapter.here
  vault_here : adapter.stockAcquisitionVault = vault.here
  weth : adapter.weth = vault.weth

/-- The world of the vault, with the chain the adapter reads and the calls it made so far,
newest first. -/
abbrev World := StockVault.World (Chain × List LowLevelCall)

/-- The adapter as the vault calls it, with the execution data it hands through. -/
def asAdapter (s : System) (call : Router) (timestamp : ℕ)
    (executionData : Option RialtoExecution) : StockVault.Adapter (Chain × List LowLevelCall) :=
  fun stockToken wethAmountIn minStockOut deadline chain =>
    match acquireStock s.adapter s.vault call timestamp s.vault.here stockToken wethAmountIn
      minStockOut deadline executionData chain.1 chain.2 with
    | .error _ => none
    | .ok result => some result

/-- `executeAcquisition` of the vault with this adapter. -/
def executeAcquisition (s : System) (call : Router) (w : World) (sender stockToken : Address)
    (wethAmountIn minStockOut deadline : ℕ) (executionData : Option RialtoExecution) :
    Except StockVault.Error (ℕ × World) :=
  StockVault.executeAcquisition s.vault (asAdapter s call w.timestamp executionData) w sender
    stockToken wethAmountIn minStockOut deadline

/-- A transaction at the current time; the router and the registry behave as they like. -/
inductive Tx
  | elapse (seconds : ℕ)
  | executeAcquisition (sender stockToken : Address) (wethAmountIn minStockOut deadline : ℕ)
      (executionData : Option RialtoExecution) (call : Router)
  | releaseToDistributionCoordinator (sender stockToken : Address) (amount : ℕ)
  | token (asset : Address) (call : Erc20.Call)
  | chain (chain : Chain)

def exec (s : System) (w : World) : Tx → Except StockVault.Error World
  | .elapse seconds => .ok { w with timestamp := w.timestamp+seconds }
  | .executeAcquisition sender stockToken wethAmountIn minStockOut deadline executionData call => do
    let (_,w') ← executeAcquisition s call w sender stockToken wethAmountIn minStockOut deadline
      executionData
    return w'
  | .releaseToDistributionCoordinator sender stockToken amount =>
    StockVault.releaseToDistributionCoordinator s.vault w sender stockToken amount
  | .token asset call => do
    revertIf (call.sender ∈ [s.vault.here,s.adapter.here]) (.token (.invalidSender call.sender))
    let tokens ← (w.tokens.call asset call).mapError .token
    return { w with tokens }
  | .chain chain => .ok { w with others := (chain,w.others.2) }

end RialtoAdapter
end BpsProtocol
