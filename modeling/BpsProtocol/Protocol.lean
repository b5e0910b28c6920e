import BpsProtocol.CoordinatorBudget
import BpsProtocol.DeploymentCompleteness
import BpsProtocol.TradeRouterDetails

/-! The protocol on chain: the trade router beside the wired system that its stock budget feeds.
A transaction is one of the system, a trade, or an owner's call.  While a trade runs, its swap
adapter may have anybody outside the router make transactions of the system: the router is
locked, the vault and the coordinator are not. -/
namespace BpsProtocol
namespace Protocol

open Checked Erc20

/-- The router and the system as they are deployed: the stock budget goes to the vault. -/
structure Deployment where
  system : Coordinator.System
  router : TradeRouter.Deployment
  weth : router.weth = system.vault.weth
  budget : router.stockBudgetRecipient = system.vault.here
  router_distinct : router.here ∉ [0,system.coordinator.here,system.vault.here,
    system.manager.here]

structure World where
  system : Coordinator.World
  router : TradeRouter.Storage

/-- What a swap can reach beside the tokens; `memory` is what its adapter and venue keep. -/
structure Rest (μ : Type) where
  manager : ClaimManager.Storage
  stock : StockVault.Storage
  coordinator : Coordinator.Storage
  memory : μ

section Views

variable {μ : Type}

/-- The wired system as a swap finds it. -/
def Rest.system (r : Rest μ) (timestamp : ℕ) (tokens : Ledger) : Coordinator.World :=
  ⟨timestamp,tokens,r.manager,r.stock,r.coordinator⟩

/-- What the router's functions see of the world. -/
def World.atRouter (w : World) (memory : μ) : TradeRouter.World (Rest μ) where
  timestamp := w.system.timestamp
  tokens := w.system.tokens
  others := ⟨w.system.manager,w.system.stock,w.system.coordinator,memory⟩
  router := w.router

/-- The wired system in a world of the router. -/
def atSystem (u : TradeRouter.World (Rest μ)) : Coordinator.World :=
  u.others.system u.timestamp u.tokens

def World.afterRouter (w : World) (u : TradeRouter.World (Rest μ)) : World :=
  ⟨u.others.system w.system.timestamp u.tokens,u.router⟩

end Views

/-- A transaction of the system within another one: no time passes. -/
def within (s : Coordinator.System) (w : Coordinator.World) :
    Coordinator.Tx → Except Coordinator.Error Coordinator.World
  | .elapse _ => .error .noSuchCall
  | tx => Coordinator.exec s w tx

/-- A swap adapter: what one call of it does is a run of transactions of the system. -/
structure SwapAdapter (s : Coordinator.System) (μ : Type) where
  swapExactInput : (timestamp : ℕ) → TradeRouter.Adapter (Rest μ)
  runs : ∀ timestamp tokenIn tokenOut amountIn minimumAmountOut recipient deadline l r
    reported l' r', swapExactInput timestamp tokenIn tokenOut amountIn minimumAmountOut recipient
      deadline (l,r) = some (reported,(l',r')) →
    Machine.Runs (within s) (r.system timestamp l) (r'.system timestamp l')

inductive Error
  | router (e : TradeRouter.Error)
  | system (e : Coordinator.Error)
  deriving DecidableEq

inductive Tx (s : Coordinator.System) (μ : Type)
  | system (tx : Coordinator.Tx)
  | trade (adapter : SwapAdapter s μ) (memory : μ) (trade : TradeRouter.Trade)
  | pause (sender : Address)
  | unpause (sender : Address)
  | ownership (sender : Address) (call : Ownable.Call)

variable {μ : Type} {d : Deployment}

def exec (d : Deployment) (w : World) : Tx d.system μ → Except Error World
  | .system tx => do
    let system ← (Coordinator.exec d.system w.system tx).mapError .system
    return { w with system }
  | .trade adapter memory trade => do
    let u ← (trade.exec d.router (adapter.swapExactInput w.system.timestamp)
      (w.atRouter memory)).mapError .router
    return w.afterRouter u
  | .pause sender => do
    let router ← (TradeRouter.pause w.router sender).mapError .router
    return { w with router }
  | .unpause sender => do
    let router ← (TradeRouter.unpause w.router sender).mapError .router
    return { w with router }
  | .ownership sender call => do
    let router ← (TradeRouter.changeOwnership w.router sender call).mapError .router
    return { w with router }

/-- The world in which everything was just deployed. -/
structure Initial (d : Deployment) (w : World) : Prop where
  system : Coordinator.Initial d.system w.system
  router : ∃ initialOwner, w.router = .deployed initialOwner

abbrev Reachable (d : Deployment) (μ : Type) : World → Prop :=
  Machine.Reachable (Initial d) (exec (μ := μ) d)

/-! ## What the others do meanwhile -/

section Meanwhile

variable {s : Coordinator.System} {w w' : Coordinator.World} {tx : Coordinator.Tx}
  {asset : Address} {tokens : Ledger}

theorem exec_timestamp (h : Coordinator.exec s w tx = .ok w') (htx : ∀ n, tx ≠ .elapse n) :
    w'.timestamp = w.timestamp := by
  cases tx with
  | elapse seconds => exact absurd rfl (htx seconds)
  | executeAndRecordAcquisition sender stockToken wethAmountIn minStockOut deadline adapter =>
    simp only [Coordinator.exec,Coordinator.executeAndRecordAcquisition,bind_eq_ok,
      revertIf_eq_ok,mapError_eq_ok,add_eq_ok,exists_const,pure_eq_ok] at h
    obtain ⟨_,⟨-,-,-,-,-,_,-,_,-,_,-,rfl⟩,rfl⟩ := h
    rfl
  | fundRecordedAcquisition sender acquisitionId inputs =>
    simp only [Coordinator.exec,Coordinator.fundRecordedAcquisition,Coordinator.releaseAndFund,
      Coordinator.publishExact,bind_eq_ok,revertIf_eq_ok,mapError_eq_ok,sub_eq_ok,exists_const,
      pure_eq_ok] at h
    obtain ⟨-,-,-,w₁,hrelease,w₂,⟨_,-,_,-,_,-,-,_,-,-,-,rfl⟩,rfl⟩ := h
    obtain ⟨v,-,rfl⟩ := Coordinator.releaseExact_ok hrelease
    rfl
  | foreign tx =>
    simp only [Coordinator.exec,bind_eq_ok,mapError_eq_ok,pure_eq_ok] at h
    obtain ⟨u,-,rfl⟩ := h
    rfl
  | executeAcquisition sender stockToken wethAmountIn minStockOut deadline adapter =>
    simp only [Coordinator.exec,bind_eq_ok,revertIf_eq_ok,mapError_eq_ok,exists_const,
      pure_eq_ok] at h
    obtain ⟨-,_,-,rfl⟩ := h
    rfl
  | releaseToDistributionCoordinator sender stockToken amount =>
    simp only [Coordinator.exec,bind_eq_ok,revertIf_eq_ok,mapError_eq_ok,exists_const,
      pure_eq_ok] at h
    obtain ⟨-,_,-,rfl⟩ := h
    rfl

theorem within_ok (h : within s w tx = .ok w') :
    Coordinator.exec s w tx = .ok w' ∧ w'.timestamp = w.timestamp := by
  have hne : ∀ n, tx ≠ .elapse n := by
    rintro n rfl
    cases h
  have hexec : Coordinator.exec s w tx = .ok w' := by
    cases tx <;> first | exact absurd rfl (hne _) | exact h
  exact ⟨hexec,exec_timestamp hexec hne⟩

theorem within_runs (h : Machine.Runs (within s) w w') :
    Machine.Runs (Coordinator.exec s) w w' := by
  obtain ⟨txs,rfl⟩ := h
  exact Machine.run_simulated (I := fun _ => True) id
    (fun _ _ _ _ hx => ⟨trivial,.of_exec _ (within_ok hx).1⟩) trivial txs

/-- A token call of an account outside the system. -/
theorem within_call (call : Call)
    (hsender : call.sender ∉ [0,s.coordinator.here,s.vault.here,s.manager.here])
    (h : w.tokens.call asset call = .ok tokens) :
    Machine.Runs (within s) w { w with tokens } := by
  have hmanager : call.sender ≠ s.manager.here := fun he => hsender (by simp [he])
  have hcall := Coordinator.exec_token (u := w.atManager) call hmanager h
  refine .of_exec (.foreign (.token asset call)) ?_
  simp only [within,Coordinator.exec,Coordinator.foreign,ClaimManager.Tx.sender,
    revertIf_of_not hsender,ok_bind,hcall]
  rfl

end Meanwhile

/-! ## The adapters -/

/-- What a scripted adapter does in one call: transactions of the others, each of which may
fail, and at last a report or a revert. -/
structure Behaviour where
  calls : List Coordinator.Tx
  reported : Option ℕ

/-- The system after the calls of a swap. -/
def Rest.after (u : Coordinator.World) (memory : μ) : Rest μ :=
  ⟨u.manager,u.stock,u.coordinator,memory⟩

theorem Rest.after_system {u : Coordinator.World} {timestamp : ℕ} {memory : μ}
    (h : u.timestamp = timestamp) : (Rest.after u memory).system timestamp u.tokens = u := by
  subst h
  rfl

/-- The adapter that acts out a script, one behaviour for each call. -/
def scripted (s : Coordinator.System) : SwapAdapter s (List Behaviour) where
  swapExactInput timestamp _ _ _ _ _ _ chain :=
    match chain.2.memory with
    | [] => none
    | b::rest => b.reported.map fun reported =>
      let u := Machine.run (within s) (chain.2.system timestamp chain.1) b.calls
      (reported,(u.tokens,Rest.after u rest))
  runs timestamp _ _ _ _ _ _ l r reported l' r' h := by
    cases hm : r.memory with
    | nil => simp [hm] at h
    | cons b rest =>
      simp only [hm,Option.map_eq_some_iff,Prod.mk.injEq] at h
      obtain ⟨_,-,-,rfl,rfl⟩ := h
      have htime : (Machine.run (within s) (r.system timestamp l) b.calls).timestamp =
          timestamp :=
        Machine.run_preserves (I := fun v : Coordinator.World => v.timestamp = timestamp)
          (fun _ _ _ hv hx => (within_ok hx).2.trans hv) rfl b.calls
      exact ⟨b.calls,(Rest.after_system htime).symm⟩

/-- The venue of the adapter: what one call of it does is a run of the system, too. -/
structure Venue (s : Coordinator.System) (μ : Type) where
  exactInputSingle : (timestamp : ℕ) → UniswapAdapter.Venue (Rest μ)
  runs : ∀ timestamp params l r reported l' r',
    exactInputSingle timestamp params (l,r) = some (reported,(l',r')) →
    Machine.Runs (within s) (r.system timestamp l) (r'.system timestamp l')

/-- The adapter of the deployment, an account outside the system, over any venue. -/
def uniswap (s : Coordinator.System) (a : UniswapAdapter.Deployment)
    (hhere : a.here ∉ [0,s.coordinator.here,s.vault.here,s.manager.here]) (venue : Venue s μ) :
    SwapAdapter s μ where
  swapExactInput timestamp tokenIn tokenOut amountIn minimumAmountOut recipient deadline chain :=
    (UniswapAdapter.swapExactInput a (venue.exactInputSingle timestamp) timestamp
      a.bpsTradeRouter tokenIn tokenOut amountIn minimumAmountOut recipient deadline
      chain).toOption
  runs timestamp tokenIn tokenOut amountIn minimumAmountOut recipient deadline l r reported l' r'
      h := by
    have hok : UniswapAdapter.swapExactInput a (venue.exactInputSingle timestamp) timestamp
        a.bpsTradeRouter tokenIn tokenOut amountIn minimumAmountOut recipient deadline (l,r) =
        .ok (reported,(l',r')) := by
      revert h
      cases UniswapAdapter.swapExactInput a (venue.exactInputSingle timestamp) timestamp
        a.bpsTradeRouter tokenIn tokenOut amountIn minimumAmountOut recipient deadline (l,r) with
      | error e => exact fun h => nomatch h
      | ok x => exact fun h => congrArg Except.ok (Option.some.inj h)
    simp only [UniswapAdapter.swapExactInput,UniswapAdapter.venueSwap,bind_eq_ok,revertIf_eq_ok,
      mapError_eq_ok,orRevert_eq_ok,sub_eq_ok,exists_const,pure_eq_ok] at hok
    obtain ⟨-,-,-,-,-,_,-,l₁,hpull,_,-,-,_,⟨l₂,happrove,⟨_,l₃,r₃⟩,hvenue,l₄,hclear,rfl⟩,_,-,-,-,-,
      -,-,he⟩ := hok
    obtain ⟨-,hchain⟩ := Prod.mk.inj he
    obtain ⟨rfl,rfl⟩ := Prod.mk.inj hchain
    have hpulled := within_call (s := s) (w := r.system timestamp l)
      (.transferFrom a.here a.bpsTradeRouter a.here amountIn) hhere hpull
    have happroved := within_call (s := s) (w := r.system timestamp l₁)
      (.approve a.here a.swapRouter02 amountIn) hhere happrove
    have hcleared := within_call (s := s) (w := r₃.system timestamp l₃)
      (.approve a.here a.swapRouter02 0) hhere hclear
    exact ((hpulled.trans happroved).trans (venue.runs _ _ _ _ _ _ _ hvenue)).trans hcleared

end Protocol
end BpsProtocol
