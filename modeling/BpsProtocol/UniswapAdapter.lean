import BpsProtocol.TradeRouter

/-! `UniswapV3BPSSwapAdapter`: one exact-input swap on an external venue, for the router.
The venue is a parameter: a call on the tokens and on everything else on the chain that it
can reach, which reports an amount or reverts.  The adapter keeps no storage. -/
namespace BpsProtocol
namespace UniswapAdapter

open Checked Mapping Erc20

/-- The recipient that SwapRouter02 reads as its caller. -/
def msgSenderSentinel : Address := 1

/-- The recipient that SwapRouter02 reads as itself. -/
def routerSelfSentinel : Address := 2

/-- The immutable configuration, with what the constructor checked of it. -/
structure Deployment where
  here : Address
  bpsTradeRouter : Address
  bps : Address
  weth : Address
  swapRouter02 : Address
  poolFee : ℕ
  nonzero : 0 ∉ [bpsTradeRouter,bps,weth,swapRouter02]
  pair_distinct : bps ≠ weth
  venue_distinct : swapRouter02 ∉ [bps,weth,bpsTradeRouter]
  router_distinct : bpsTradeRouter ∉ [bps,weth]
  poolFee_ne_zero : poolFee ≠ 0

inductive Error
  | notBpsTradeRouter
  | unsupportedPair (tokenIn tokenOut : Address)
  | sameToken
  | zeroAmountIn
  | expiredDeadline
  | invalidRecipient (recipient : Address)
  | fundingMismatch (expected actual : ℕ)
  | outputMismatch (reported observed : ℕ)
  | minimumOutputNotMet (minimum observed : ℕ)
  | residualBpsInAdapter (before afterBalance : ℕ)
  | residualWethInAdapter (before afterBalance : ℕ)
  | approvalNotCleared (remaining : ℕ)
  | panic
  | token (e : Erc20.Error)
  | venueReverted
  | noSuchCall
  deriving DecidableEq

structure ExactInputSingleParams where
  tokenIn : Address
  tokenOut : Address
  fee : ℕ
  recipient : Address
  amountIn : ℕ
  amountOutMinimum : ℕ
  sqrtPriceLimitX96 : ℕ

/-- `exactInputSingle`: the reported amount and what the call did, or a revert. -/
abbrev Venue (γ : Type) := ExactInputSingleParams → Ledger × γ → Option (ℕ × (Ledger × γ))

variable {γ : Type}

def validateRecipient (a : Deployment) (recipient : Address) : Except Error Unit :=
  revertIf (recipient ∈ [0,msgSenderSentinel,routerSelfSentinel,a.here,a.swapRouter02,a.bps,a.weth])
    (.invalidRecipient recipient)

/-- `_venueSwap` -/
def venueSwap (a : Deployment) (exactInputSingle : Venue γ) (tokenIn tokenOut : Address)
    (amountIn minimumAmountOut : ℕ) (recipient : Address) (chain : Ledger × γ) :
    Except Error (ℕ × (Ledger × γ)) := do
  let tokens ← (chain.1.approve tokenIn a.here a.swapRouter02 amountIn).mapError .token
  let (reported,tokens,others) ← orRevert .venueReverted (exactInputSingle
    { tokenIn, tokenOut, fee := a.poolFee, recipient, amountIn, amountOutMinimum := minimumAmountOut,
      sqrtPriceLimitX96 := 0 } (tokens,chain.2))
  let tokens ← (tokens.approve tokenIn a.here a.swapRouter02 0).mapError .token
  return (reported,(tokens,others))

def swapExactInput (a : Deployment) (exactInputSingle : Venue γ) (timestamp : ℕ) (sender : Address)
    (tokenIn tokenOut : Address) (amountIn minimumAmountOut : ℕ) (recipient : Address)
    (deadline : ℕ) (chain : Ledger × γ) : Except Error (ℕ × (Ledger × γ)) := do
  revertIf (sender ≠ a.bpsTradeRouter) .notBpsTradeRouter
  let bpsToWeth := tokenIn = a.bps ∧ tokenOut = a.weth
  let wethToBps := tokenIn = a.weth ∧ tokenOut = a.bps
  revertIf (¬bpsToWeth ∧ ¬wethToBps) (.unsupportedPair tokenIn tokenOut)
  revertIf (tokenIn = tokenOut) .sameToken
  revertIf (amountIn = 0) .zeroAmountIn
  revertIf (deadline < timestamp) .expiredDeadline
  validateRecipient a recipient
  let adapterBpsBefore := (chain.1 a.bps).balanceOf a.here
  let adapterWethBefore := (chain.1 a.weth).balanceOf a.here
  let recipientOutBefore := (chain.1 tokenOut).balanceOf recipient
  let tinBefore := (chain.1 tokenIn).balanceOf a.here
  let tokens ←
    (chain.1.transferFrom tokenIn a.here a.bpsTradeRouter a.here amountIn).mapError .token
  let pulled ← sub .panic ((tokens tokenIn).balanceOf a.here) tinBefore
  revertIf (pulled ≠ amountIn) (.fundingMismatch amountIn pulled)
  let (reported,tokens,others) ← venueSwap a exactInputSingle tokenIn tokenOut amountIn
    minimumAmountOut recipient (tokens,chain.2)
  let amountOut ← sub .panic ((tokens tokenOut).balanceOf recipient) recipientOutBefore
  revertIf (amountOut ≠ reported) (.outputMismatch reported amountOut)
  revertIf (amountOut < minimumAmountOut) (.minimumOutputNotMet minimumAmountOut amountOut)
  let adapterBpsAfter := (tokens a.bps).balanceOf a.here
  revertIf (adapterBpsAfter ≠ adapterBpsBefore)
    (.residualBpsInAdapter adapterBpsBefore adapterBpsAfter)
  let adapterWethAfter := (tokens a.weth).balanceOf a.here
  revertIf (adapterWethAfter ≠ adapterWethBefore)
    (.residualWethInAdapter adapterWethBefore adapterWethAfter)
  let remaining := (tokens tokenIn).allowance a.here a.swapRouter02
  revertIf (remaining ≠ 0) (.approvalNotCleared remaining)
  return (amountOut,(tokens,others))

/-- The router and the adapter as they are wired; they are two contracts. -/
structure System where
  router : TradeRouter.Deployment
  adapter : Deployment
  adapter_here : router.swapAdapter = adapter.here
  router_here : adapter.bpsTradeRouter = router.here
  bps : adapter.bps = router.bpsToken
  weth : adapter.weth = router.weth
  distinct : router.here ≠ adapter.here

/-- One completed call of the adapter: its arguments, its result and the tokens around it. -/
structure Swap where
  tokenIn : Address
  tokenOut : Address
  amountIn : ℕ
  minimumAmountOut : ℕ
  recipient : Address
  amountOut : ℕ
  before : Ledger
  after : Ledger

/-- The adapter as the router calls it; the completed swaps are written down, newest first. -/
def asAdapter (s : System) (exactInputSingle : Venue γ) (timestamp : ℕ) :
    TradeRouter.Adapter (γ × List Swap) :=
  fun tokenIn tokenOut amountIn minimumAmountOut recipient deadline chain =>
    match swapExactInput s.adapter exactInputSingle timestamp s.router.here tokenIn tokenOut
      amountIn minimumAmountOut recipient deadline (chain.1,chain.2.1) with
    | .error _ => none
    | .ok (amountOut,tokens,others) =>
      some (amountOut,(tokens,(others,⟨tokenIn,tokenOut,amountIn,minimumAmountOut,recipient,
        amountOut,chain.1,tokens⟩::chain.2.2)))

/-- What one call of the venue does: calls on tokens by any account but the router and the
adapter, each of which may fail, and at last a report or a revert. -/
structure Behaviour where
  calls : List (Address × Erc20.Call)
  reported : Option ℕ

def outsideCall (s : System) (l : Ledger) (c : Address × Erc20.Call) : Except Error Ledger := do
  revertIf (c.2.sender ∈ [s.router.here,s.adapter.here]) .noSuchCall
  (l.call c.1 c.2).mapError .token

/-- The venue that acts out a script, one behaviour for each call. -/
def scripted (s : System) : Venue (List Behaviour) :=
  fun _ chain => match chain.2 with
    | [] => none
    | b::rest => b.reported.map fun reported =>
      (reported,(Machine.run (outsideCall s) chain.1 b.calls,rest))

/-- The world of the router, with the venue's script and the completed swaps. -/
abbrev World := TradeRouter.World (List Behaviour × List Swap)

inductive Tx
  | elapse (seconds : ℕ)
  | trade (script : List Behaviour) (trade : TradeRouter.Trade)
  | pause (sender : Address)
  | unpause (sender : Address)
  | ownership (sender : Address) (call : Ownable.Call)
  | token (asset : Address) (call : Erc20.Call)

/-- A trade against a venue that acts out a script; the list of swaps starts empty. -/
def trade (s : System) (w : World) (script : List Behaviour) (t : TradeRouter.Trade) :
    Except TradeRouter.Error World :=
  t.exec s.router (asAdapter s (scripted s) w.timestamp) { w with others := (script,[]) }

def exec (s : System) (w : World) : Tx → Except TradeRouter.Error World
  | .elapse seconds => .ok { w with timestamp := w.timestamp+seconds }
  | .trade script t => trade s w script t
  | .pause sender => do
    let router ← TradeRouter.pause w.router sender
    return { w with router }
  | .unpause sender => do
    let router ← TradeRouter.unpause w.router sender
    return { w with router }
  | .ownership sender call => do
    let router ← TradeRouter.changeOwnership w.router sender call
    return { w with router }
  | .token asset call => do
    revertIf (call.sender ∈ [s.router.here,s.adapter.here]) .noSuchCall
    let tokens ← (w.tokens.call asset call).mapError .token
    return { w with tokens }

/-- The world in which the router and the adapter were just deployed at fresh addresses;
donations may already sit there. -/
structure Initial (s : System) (w : World) : Prop where
  storage : ∃ initialOwner, w.router = .deployed initialOwner
  adapter_closed : w.tokens.Closed s.adapter.here

abbrev Reachable (s : System) : World → Prop :=
  Machine.Reachable (Initial s) (exec s)

end UniswapAdapter
end BpsProtocol
