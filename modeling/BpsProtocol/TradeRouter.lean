import BpsProtocol.Ledger
import BpsProtocol.Lib.Machine
import BpsProtocol.Ownable

/-! `BPSTradeRouter`: buys and sells through a swap adapter, with a stock budget and a burn.
The adapter is a parameter: a call on the tokens and on everything else on the chain that
it can reach, which reports an amount or reverts.  The router's own storage is out of its
reach, because both trades are locked while the adapter runs. -/
namespace BpsProtocol
namespace TradeRouter

open Checked Mapping Erc20 Ownable

def bpsDenominator : ℕ := 10000
def buyStockBps : ℕ := 200
def buyBurnBps : ℕ := 100
def sellStockBps : ℕ := 200
def sellBurnBps : ℕ := 200

/-- The immutable configuration, with what the constructor checked of it. -/
structure Deployment where
  here : Address
  bpsToken : Address
  weth : Address
  swapAdapter : Address
  stockBudgetRecipient : Address
  nonzero : 0 ∉ [bpsToken,weth,swapAdapter,stockBudgetRecipient]
  pair_distinct : bpsToken ≠ weth
  adapter_distinct : swapAdapter ∉ [bpsToken,weth]
  recipient_distinct : stockBudgetRecipient ∉ [here,bpsToken,weth,swapAdapter]

inductive Event
  | officialBuy (tradeId : ℕ) (trader recipient : Address)
      (grossWethInput stockBudget burnBudget userWethBudget userBpsOutput bpsBurned : ℕ)
      (adapter stockBudgetRecipient : Address)
  | officialSell (tradeId : ℕ) (trader recipient : Address)
      (grossBpsInput grossWethOutput stockBudget burnBudget userWethOutput bpsBurned : ℕ)
      (adapter stockBudgetRecipient : Address)
  | stockBudgetDelivered (tradeId : ℕ) (recipient : Address) (amount : ℕ)
  | bpsRepurchasedAndBurned (tradeId wethSpent bpsBurned : ℕ)
  deriving DecidableEq

inductive Error
  | zeroInput
  | invalidRecipient
  | expiredDeadline
  | fundingMismatch (declared received : ℕ)
  | adapterSpendMismatch (expected actual : ℕ)
  | adapterOutputMismatch (reported actual : ℕ)
  | minimumOutputNotMet
  | stockBudgetDeliveryMismatch (expected received : ℕ)
  | burnSupplyMismatch (expected actual : ℕ)
  | unexpectedResidue
  | invalidZeroBudgetMinimum
  | renounceDisabled
  | enforcedPause
  | expectedPause
  | panic
  | ownable (e : Ownable.Error)
  | token (e : Erc20.Error)
  | adapterReverted
  | noSuchCall
  deriving DecidableEq

structure Storage where
  ownership : Ownership
  paused : Bool
  tradeCount : ℕ
  totalBuys : ℕ
  totalSells : ℕ
  totalGrossWethInFromBuys : ℕ
  totalGrossBpsInFromSells : ℕ
  totalStockBudgetDelivered : ℕ
  totalBurnBudgetConsumed : ℕ
  totalBpsBurned : ℕ
  events : List Event

def Storage.deployed (initialOwner : Address) : Storage :=
  ⟨⟨initialOwner,0⟩,false,0,0,0,0,0,0,0,0,[]⟩

/-- The tokens and the rest of the chain, with the router's storage. -/
structure World (γ : Type) where
  timestamp : ℕ
  tokens : Ledger
  others : γ
  router : Storage

/-- `swapExactInput`: the reported amount and what the call did, or a revert. -/
abbrev Adapter (γ : Type) := (tokenIn tokenOut : Address) → (amountIn minimumAmountOut : ℕ) →
  (recipient : Address) → (deadline : ℕ) → Ledger × γ → Option (ℕ × (Ledger × γ))

def validateRecipient (d : Deployment) (recipient : Address) : Except Error Unit := do
  revertIf (recipient = 0) .invalidRecipient
  revertIf (recipient ∈ [d.here,d.bpsToken,d.weth,d.swapAdapter]) .invalidRecipient

def checkDeadline (timestamp deadline : ℕ) : Except Error Unit :=
  revertIf (deadline < timestamp) .expiredDeadline

/-- `_pullExact` -/
def pullExact (d : Deployment) (tokens : Ledger) (token trader : Address) (amount : ℕ) :
    Except Error Ledger := do
  let before := (tokens token).balanceOf d.here
  let tokens ← (tokens.transferFrom token d.here trader d.here amount).mapError .token
  let received ← sub .panic ((tokens token).balanceOf d.here) before
  revertIf (received ≠ amount) (.fundingMismatch amount received)
  return tokens

/-- A WETH transfer out of the router, with the receiving side verified. -/
def deliverWeth (d : Deployment) (tokens : Ledger) (recipient : Address) (amount : ℕ) :
    Except Error Ledger := do
  let before := (tokens d.weth).balanceOf recipient
  let tokens ← (tokens.transfer d.weth d.here recipient amount).mapError .token
  let received ← sub .panic ((tokens d.weth).balanceOf recipient) before
  revertIf (received ≠ amount) (.stockBudgetDeliveryMismatch amount received)
  return tokens

variable {γ : Type}

def World.emit (w : World γ) (event : Event) : World γ :=
  { w with router := { w.router with events := event::w.router.events } }

/-- `_deliverStockBudget` -/
def deliverStockBudget (d : Deployment) (w : World γ) (tradeId amount : ℕ) :
    Except Error (World γ) :=
  if amount = 0 then .ok w
  else do
    let tokens ← deliverWeth d w.tokens d.stockBudgetRecipient amount
    return { w with tokens }.emit (.stockBudgetDelivered tradeId d.stockBudgetRecipient amount)

/-- `_deliverUserWeth` -/
def deliverUserWeth (d : Deployment) (w : World γ) (recipient : Address) (amount : ℕ) :
    Except Error (World γ) :=
  if amount = 0 then .ok w
  else do
    let tokens ← deliverWeth d w.tokens recipient amount
    return { w with tokens }

/-- `_adapterSwap`: an exact approval, cleared after use, and the balances compared. -/
def adapterSwap (d : Deployment) (swapExactInput : Adapter γ) (w : World γ)
    (tokenIn tokenOut : Address) (amountIn minOut : ℕ) (recipient : Address) (deadline : ℕ) :
    Except Error (ℕ × World γ) :=
  if amountIn = 0 then do
    revertIf (minOut ≠ 0) .invalidZeroBudgetMinimum
    return (0,w)
  else do
    let inBefore := (w.tokens tokenIn).balanceOf d.here
    let outBefore := (w.tokens tokenOut).balanceOf recipient
    let tokens ← (w.tokens.approve tokenIn d.here d.swapAdapter amountIn).mapError .token
    let (reported,tokens,others) ← orRevert .adapterReverted
      (swapExactInput tokenIn tokenOut amountIn minOut recipient deadline (tokens,w.others))
    let tokens ← (tokens.approve tokenIn d.here d.swapAdapter 0).mapError .token
    let spent ← sub .panic inBefore ((tokens tokenIn).balanceOf d.here)
    revertIf (spent ≠ amountIn) (.adapterSpendMismatch amountIn spent)
    let received ← sub .panic ((tokens tokenOut).balanceOf recipient) outBefore
    revertIf (received ≠ reported) (.adapterOutputMismatch reported received)
    revertIf (received < minOut) .minimumOutputNotMet
    return (received,{ w with tokens, others })

/-- The burn of repurchased tokens, with the balance and the supply verified. -/
def burnExact (d : Deployment) (tokens : Ledger) (burned : ℕ) : Except Error Ledger := do
  let balBefore := (tokens d.bpsToken).balanceOf d.here
  let supplyBefore := (tokens d.bpsToken).totalSupply
  let tokens ← (tokens.burn d.bpsToken d.here burned).mapError .token
  let balDrop ← sub .panic balBefore ((tokens d.bpsToken).balanceOf d.here)
  let supplyDrop ← sub .panic supplyBefore (tokens d.bpsToken).totalSupply
  revertIf (balDrop ≠ burned) (.burnSupplyMismatch burned balDrop)
  revertIf (supplyDrop ≠ burned) (.burnSupplyMismatch burned supplyDrop)
  return tokens

/-- `_buybackAndBurn` -/
def buybackAndBurn (d : Deployment) (swapExactInput : Adapter γ) (w : World γ)
    (tradeId burnBudget minBurnOut deadline : ℕ) : Except Error (ℕ × World γ) := do
  let (burned,w) ← adapterSwap d swapExactInput w d.weth d.bpsToken burnBudget minBurnOut d.here
    deadline
  if burned = 0 then return (0,w)
  else do
    let tokens ← burnExact d w.tokens burned
    return (burned,{ w with tokens }.emit (.bpsRepurchasedAndBurned tradeId burnBudget burned))

/-- `_assertNoResidue` -/
def assertNoResidue (d : Deployment) (tokens : Ledger) (wethBaseline bpsBaseline : ℕ) :
    Except Error Unit := do
  revertIf ((tokens d.weth).balanceOf d.here ≠ wethBaseline) .unexpectedResidue
  revertIf ((tokens d.bpsToken).balanceOf d.here ≠ bpsBaseline) .unexpectedResidue

/-- The user's output and the burned amount are returned beside the next world. -/
def buyExactWethForBps (d : Deployment) (swapExactInput : Adapter γ) (w : World γ)
    (sender : Address) (grossWethInput minimumUserBpsOutput minimumBurnBpsOutput : ℕ)
    (recipient : Address) (deadline : ℕ) : Except Error ((ℕ × ℕ) × World γ) := do
  revertIf (w.router.paused = true) .enforcedPause
  revertIf (grossWethInput = 0) .zeroInput
  validateRecipient d recipient
  checkDeadline w.timestamp deadline
  let wethBaseline := (w.tokens d.weth).balanceOf d.here
  let bpsBaseline := (w.tokens d.bpsToken).balanceOf d.here
  let tokens ← pullExact d w.tokens d.weth sender grossWethInput
  let stockBudget ← mulDiv .panic grossWethInput buyStockBps bpsDenominator
  let burnBudget ← mulDiv .panic grossWethInput buyBurnBps bpsDenominator
  let afterStock ← sub .panic grossWethInput stockBudget
  let userWethBudget ← sub .panic afterStock burnBudget
  let tradeId ← add .panic w.router.tradeCount 1
  let w := { w with tokens, router := { w.router with tradeCount := tradeId } }
  let w ← deliverStockBudget d w tradeId stockBudget
  let (userBpsOutput,w) ← adapterSwap d swapExactInput w d.weth d.bpsToken userWethBudget
    minimumUserBpsOutput recipient deadline
  let (bpsBurned,w) ← buybackAndBurn d swapExactInput w tradeId burnBudget minimumBurnBpsOutput
    deadline
  assertNoResidue d w.tokens wethBaseline bpsBaseline
  let r := w.router
  let totalBuys ← add .panic r.totalBuys 1
  let grossTotal ← add .panic r.totalGrossWethInFromBuys grossWethInput
  let stockTotal ← add .panic r.totalStockBudgetDelivered stockBudget
  let burnTotal ← add .panic r.totalBurnBudgetConsumed burnBudget
  let burnedTotal ← add .panic r.totalBpsBurned bpsBurned
  return ((userBpsOutput,bpsBurned),{ w with
    router := { r with
      totalBuys
      totalGrossWethInFromBuys := grossTotal
      totalStockBudgetDelivered := stockTotal
      totalBurnBudgetConsumed := burnTotal
      totalBpsBurned := burnedTotal } }.emit
    (.officialBuy tradeId sender recipient grossWethInput stockBudget burnBudget userWethBudget
      userBpsOutput bpsBurned d.swapAdapter d.stockBudgetRecipient))

/-- The proceeds, the user's output and the burned amount are returned beside the next
world. -/
def sellExactBpsForWeth (d : Deployment) (swapExactInput : Adapter γ) (w : World γ)
    (sender : Address)
    (grossBpsInput minimumGrossWethOutput minimumUserWethOutput minimumBurnBpsOutput : ℕ)
    (recipient : Address) (deadline : ℕ) : Except Error ((ℕ × ℕ × ℕ) × World γ) := do
  revertIf (w.router.paused = true) .enforcedPause
  revertIf (grossBpsInput = 0) .zeroInput
  validateRecipient d recipient
  checkDeadline w.timestamp deadline
  let wethBaseline := (w.tokens d.weth).balanceOf d.here
  let bpsBaseline := (w.tokens d.bpsToken).balanceOf d.here
  let tokens ← pullExact d w.tokens d.bpsToken sender grossBpsInput
  let tradeId ← add .panic w.router.tradeCount 1
  let w := { w with tokens, router := { w.router with tradeCount := tradeId } }
  let (grossWethOutput,w) ← adapterSwap d swapExactInput w d.bpsToken d.weth grossBpsInput
    minimumGrossWethOutput d.here deadline
  let stockBudget ← mulDiv .panic grossWethOutput sellStockBps bpsDenominator
  let burnBudget ← mulDiv .panic grossWethOutput sellBurnBps bpsDenominator
  let afterStock ← sub .panic grossWethOutput stockBudget
  let userWethOutput ← sub .panic afterStock burnBudget
  revertIf (userWethOutput < minimumUserWethOutput) .minimumOutputNotMet
  let w ← deliverStockBudget d w tradeId stockBudget
  let w ← deliverUserWeth d w recipient userWethOutput
  let (bpsBurned,w) ← buybackAndBurn d swapExactInput w tradeId burnBudget minimumBurnBpsOutput
    deadline
  assertNoResidue d w.tokens wethBaseline bpsBaseline
  let r := w.router
  let totalSells ← add .panic r.totalSells 1
  let grossTotal ← add .panic r.totalGrossBpsInFromSells grossBpsInput
  let stockTotal ← add .panic r.totalStockBudgetDelivered stockBudget
  let burnTotal ← add .panic r.totalBurnBudgetConsumed burnBudget
  let burnedTotal ← add .panic r.totalBpsBurned bpsBurned
  return ((grossWethOutput,userWethOutput,bpsBurned),{ w with
    router := { r with
      totalSells
      totalGrossBpsInFromSells := grossTotal
      totalStockBudgetDelivered := stockTotal
      totalBurnBudgetConsumed := burnTotal
      totalBpsBurned := burnedTotal } }.emit
    (.officialSell tradeId sender recipient grossBpsInput grossWethOutput stockBudget burnBudget
      userWethOutput bpsBurned d.swapAdapter d.stockBudgetRecipient))

def pause (r : Storage) (sender : Address) : Except Error Storage := do
  (checkOwner r.ownership sender).mapError .ownable
  revertIf (r.paused = true) .enforcedPause
  return { r with paused := true }

def unpause (r : Storage) (sender : Address) : Except Error Storage := do
  (checkOwner r.ownership sender).mapError .ownable
  revertIf (r.paused = false) .expectedPause
  return { r with paused := false }

/-- The ownership calls; renouncing is disabled for every caller. -/
def changeOwnership (r : Storage) (sender : Address) : Ownable.Call → Except Error Storage
  | .renounceOwnership => .error .renounceDisabled
  | call => do
    let ownership ← (call.exec sender r.ownership).mapError .ownable
    return { r with ownership }

/-- The two trades, with the arguments their callers choose. -/
inductive Trade
  | buy (sender : Address) (grossWethInput minimumUserBpsOutput minimumBurnBpsOutput : ℕ)
      (recipient : Address) (deadline : ℕ)
  | sell (sender : Address)
      (grossBpsInput minimumGrossWethOutput minimumUserWethOutput minimumBurnBpsOutput : ℕ)
      (recipient : Address) (deadline : ℕ)

def Trade.exec (d : Deployment) (swapExactInput : Adapter γ) (w : World γ) :
    Trade → Except Error (World γ)
  | .buy sender gross minUser minBurn recipient deadline => do
    let (_,w') ← buyExactWethForBps d swapExactInput w sender gross minUser minBurn recipient
      deadline
    return w'
  | .sell sender gross minGross minUser minBurn recipient deadline => do
    let (_,w') ← sellExactBpsForWeth d swapExactInput w sender gross minGross minUser minBurn
      recipient deadline
    return w'

/-- One call of an adapter that moves its own tokens, or what the router allows it, to
anybody but the stock budget recipient. -/
inductive AdapterCall
  | transfer (asset target : Address) (value : ℕ)
  | pull (asset target : Address) (value : ℕ)
  | approve (asset spender : Address) (value : ℕ)

def AdapterCall.exec (d : Deployment) (l : Ledger) : AdapterCall → Except Error Ledger
  | transfer asset target value => do
    revertIf (target = d.stockBudgetRecipient) .noSuchCall
    (l.transfer asset d.swapAdapter target value).mapError .token
  | pull asset target value => do
    revertIf (target = d.stockBudgetRecipient) .noSuchCall
    (l.transferFrom asset d.swapAdapter d.here target value).mapError .token
  | approve asset spender value => (l.approve asset d.swapAdapter spender value).mapError .token

/-- What one call of the adapter does: token calls, each of which may fail, and at last a
report or a revert. -/
structure Behaviour where
  calls : List AdapterCall
  reported : Option ℕ

/-- The adapter that acts out a script, one behaviour for each call. -/
def scripted (d : Deployment) : Adapter (List Behaviour) :=
  fun _ _ _ _ _ _ chain => match chain.2 with
    | [] => none
    | b::rest => b.reported.map fun reported =>
      (reported,(Machine.run (AdapterCall.exec d) chain.1 b.calls,rest))

/-- A transaction at the current time; a trade comes with what its adapter will do. -/
inductive Tx
  | elapse (seconds : ℕ)
  | trade (script : List Behaviour) (trade : Trade)
  | pause (sender : Address)
  | unpause (sender : Address)
  | ownership (sender : Address) (call : Ownable.Call)
  | token (asset : Address) (call : Erc20.Call)

def exec (d : Deployment) (w : World (List Behaviour)) :
    Tx → Except Error (World (List Behaviour))
  | .elapse seconds => .ok { w with timestamp := w.timestamp+seconds }
  | .trade script trade => trade.exec d (scripted d) { w with others := script }
  | .pause sender => do
    let router ← pause w.router sender
    return { w with router }
  | .unpause sender => do
    let router ← unpause w.router sender
    return { w with router }
  | .ownership sender call => do
    let router ← changeOwnership w.router sender call
    return { w with router }
  | .token asset call => do
    -- the router's own calls on tokens are those of its functions
    revertIf (call.sender = d.here) .noSuchCall
    let tokens ← (w.tokens.call asset call).mapError .token
    return { w with tokens }

/-- The world in which the router was just deployed at a fresh address, which is not its
adapter's: the router answers no swap.  Donations may already sit there. -/
structure Initial (d : Deployment) (w : World (List Behaviour)) : Prop where
  here_ne_zero : d.here ≠ 0
  adapter_ne_here : d.swapAdapter ≠ d.here
  storage : ∃ initialOwner, w.router = .deployed initialOwner
  closed : w.tokens.Closed d.here

abbrev Reachable (d : Deployment) : World (List Behaviour) → Prop :=
  Machine.Reachable (Initial d) (exec d)

end TradeRouter
end BpsProtocol
