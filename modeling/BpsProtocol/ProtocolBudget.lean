import BpsProtocol.Protocol

/-! What the stock budget of the trades becomes.
The protocol refines the wired system: a trade is a run of it, in which the stock budget comes
to the vault on top of everything else.  So what the router delivered is in the vault still, or
it was spent on acquisitions that are recorded. -/
namespace BpsProtocol
namespace Protocol

open Checked Erc20

variable {μ : Type} {d : Deployment} {w w' : World}

/-! ## A trade as a run of the system -/

/-- A run of the system in which the vault's budget grows by an amount at least. -/
structure Advances (s : Coordinator.System) (u u' : Coordinator.World) (amount : ℕ) : Prop where
  runs : Machine.Runs (Coordinator.exec s) u u'
  budget : Coordinator.Secured s u →
    Coordinator.budget s u+amount ≤ Coordinator.budget s u'

namespace Advances

variable {s : Coordinator.System} {u u' u'' : Coordinator.World} {amount amount' : ℕ}

theorem of_runs (h : Machine.Runs (Coordinator.exec s) u u') : Advances s u u' 0 := by
  refine ⟨h,fun hs => ?_⟩
  obtain ⟨txs,rfl⟩ := h
  exact (Coordinator.run_secured hs txs).2

theorem secured (h : Advances s u u' amount) (hs : Coordinator.Secured s u) :
    Coordinator.Secured s u' := by
  obtain ⟨txs,rfl⟩ := h.runs
  exact (Coordinator.run_secured hs txs).1

theorem trans (h : Advances s u u' amount) (h' : Advances s u' u'' amount') :
    Advances s u u'' (amount+amount') := by
  refine ⟨h.runs.trans h'.runs,fun hs => ?_⟩
  have h₁ := h.budget hs
  have h₂ := h'.budget (h.secured hs)
  omega

end Advances

section Trades

variable {adapter : SwapAdapter d.system μ} {u u' : TradeRouter.World (Rest μ)}
  {tokens : Ledger} {tokenIn tokenOut asset recipient sender : Address}
  {amount amountIn minOut deadline received tradeId burnBudget burned gross minUser minBurn
    minGross proceeds userOutput timestamp : ℕ}

theorem advances_call (call : Call) (hsender : call.sender = d.router.here)
    (h : u.tokens.call asset call = .ok tokens) :
    Advances d.system (atSystem u) (atSystem { u with tokens }) 0 :=
  .of_runs (within_runs (within_call call (hsender ▸ d.router_distinct) h))

theorem delivered_advances (h : TradeRouter.Delivered d.router u u' recipient amount) :
    Advances d.system (atSystem u) (atSystem u') 0 := by
  have hview : atSystem u' = atSystem { u with tokens := u'.tokens } := by
    rw [atSystem,atSystem,h.others,h.timestamp]
  rw [hview]
  rcases h.tokens with ⟨-,hsame⟩ | ht
  · rw [hsame]
    exact .of_runs (.refl _)
  · exact advances_call (.transfer d.router.here recipient amount) rfl ht

/-- The delivery of the stock budget adds it to what the vault has. -/
theorem budget_advances
    (h : TradeRouter.Delivered d.router u u' d.router.stockBudgetRecipient amount) :
    Advances d.system (atSystem u) (atSystem u') amount := by
  refine ⟨(delivered_advances h).runs,fun _ => ?_⟩
  have hreceived := h.received
  rw [d.weth,d.budget] at hreceived
  simp only [Coordinator.budget,atSystem,Rest.system,h.others,hreceived]
  omega

theorem swapped_advances (htime : u.timestamp = timestamp)
    (h : TradeRouter.Swapped d.router (adapter.swapExactInput timestamp) u u' tokenIn tokenOut
      amountIn minOut recipient deadline received) :
    Advances d.system (atSystem u) (atSystem u') 0 := by
  subst htime
  rcases h.swap with ⟨-,-,rfl⟩ | hcalled
  · exact .of_runs (.refl _)
  · obtain ⟨approved,called,happrove,hcall,hclear⟩ := hcalled.called
    have happroved := advances_call
      (.approve d.router.here d.router.swapAdapter amountIn) rfl happrove
    have hruns := adapter.runs _ _ _ _ _ _ _ _ _ _ _ _ hcall
    have hcleared := advances_call (d := d) (u := { u' with tokens := called })
      (.approve d.router.here d.router.swapAdapter 0) rfl hclear
    have hmeanwhile : Advances d.system (atSystem { u with tokens := approved })
        (atSystem { u' with tokens := called }) 0 := by
      rw [atSystem,atSystem,h.timestamp]
      exact .of_runs (within_runs hruns)
    exact (happroved.trans hmeanwhile).trans hcleared

theorem boughtBack_advances (htime : u.timestamp = timestamp)
    (h : TradeRouter.BoughtBack d.router (adapter.swapExactInput timestamp) u u' tradeId
      burnBudget minOut deadline burned) : Advances d.system (atSystem u) (atSystem u') 0 := by
  obtain ⟨v,hs,hothers,ht⟩ := h.swapped
  have hview : atSystem u' = atSystem { v with tokens := u'.tokens } := by
    rw [atSystem,atSystem,hothers,h.timestamp,hs.timestamp]
  have hswapped := swapped_advances htime hs
  rw [hview]
  rcases ht with ⟨-,hsame⟩ | ⟨hburn,-⟩
  · rw [hsame]
    exact hswapped
  · exact hswapped.trans (advances_call (.burn d.router.here burned) rfl hburn)

theorem bought_advances (htime : u.timestamp = timestamp)
    (h : TradeRouter.Bought d.router (adapter.swapExactInput timestamp) u u' sender gross minUser
      minBurn recipient deadline userOutput burned) :
    ∃ amount, u'.router.totalStockBudgetDelivered =
        u.router.totalStockBudgetDelivered+amount ∧
      Advances d.system (atSystem u) (u'.others.system timestamp u'.tokens) amount := by
  obtain ⟨stockBudget,_,_,pulled,delivered,swapped,-,hpull,hd,hs,⟨v,hb,ht,ho⟩,hrouter⟩ := h.steps
  have hdtime : delivered.timestamp = timestamp := hd.timestamp.trans htime
  have hstime : swapped.timestamp = timestamp := hs.timestamp.trans hdtime
  have hvtime : v.timestamp = timestamp := hb.timestamp.trans hstime
  have hpulled := advances_call
    (.transferFrom d.router.here sender d.router.here gross) rfl hpull
  have hdelivered := hpulled.trans (budget_advances hd)
  have hswapped := hdelivered.trans (swapped_advances hdtime hs)
  have hall := hswapped.trans (boughtBack_advances hstime hb)
  refine ⟨stockBudget,by rw [hrouter],?_⟩
  have hview : u'.others.system timestamp u'.tokens = atSystem v := by
    rw [ht,ho,atSystem,hvtime]
  rw [hview]
  simpa only [Nat.zero_add,Nat.add_zero] using hall

theorem sold_advances (htime : u.timestamp = timestamp)
    (h : TradeRouter.Sold d.router (adapter.swapExactInput timestamp) u u' sender gross minGross
      minUser minBurn recipient deadline proceeds userOutput burned) :
    ∃ amount, u'.router.totalStockBudgetDelivered =
        u.router.totalStockBudgetDelivered+amount ∧
      Advances d.system (atSystem u) (u'.others.system timestamp u'.tokens) amount := by
  obtain ⟨stockBudget,_,pulled,swapped,delivered,paid,-,hpull,hs,hd,hp,⟨v,hb,ht,ho⟩,hrouter⟩ :=
    h.steps
  have hstime : swapped.timestamp = timestamp := hs.timestamp.trans htime
  have hdtime : delivered.timestamp = timestamp := hd.timestamp.trans hstime
  have hptime : paid.timestamp = timestamp := hp.timestamp.trans hdtime
  have hvtime : v.timestamp = timestamp := hb.timestamp.trans hptime
  have hpulled := advances_call
    (.transferFrom d.router.here sender d.router.here gross) rfl hpull
  have hswapped := swapped_advances (by exact htime) hs
  have hdelivered := (hpulled.trans hswapped).trans (budget_advances hd)
  have hpaid := hdelivered.trans (delivered_advances hp)
  have hall := hpaid.trans (boughtBack_advances hptime hb)
  refine ⟨stockBudget,by rw [hrouter],?_⟩
  have hview : u'.others.system timestamp u'.tokens = atSystem v := by
    rw [ht,ho,atSystem,hvtime]
  rw [hview]
  simpa only [Nat.zero_add,Nat.add_zero] using hall

theorem trade_advances {trade : TradeRouter.Trade} (htime : u.timestamp = timestamp)
    (h : trade.exec d.router (adapter.swapExactInput timestamp) u = .ok u') :
    ∃ amount, u'.router.totalStockBudgetDelivered =
        u.router.totalStockBudgetDelivered+amount ∧
      Advances d.system (atSystem u) (u'.others.system timestamp u'.tokens) amount := by
  cases trade with
  | buy sender gross minUser minBurn recipient deadline =>
    simp only [TradeRouter.Trade.exec,bind_eq_ok,pure_eq_ok] at h
    obtain ⟨⟨⟨userOutput,burned⟩,v⟩,hv,rfl⟩ := h
    exact bought_advances htime (TradeRouter.buyExactWethForBps_ok hv)
  | sell sender gross minGross minUser minBurn recipient deadline =>
    simp only [TradeRouter.Trade.exec,bind_eq_ok,pure_eq_ok] at h
    obtain ⟨⟨⟨proceeds,userOutput,burned⟩,v⟩,hv,rfl⟩ := h
    exact sold_advances htime (TradeRouter.sellExactBpsForWeth_ok hv)

end Trades

/-! ## Runs of the protocol -/

/-- A transaction of the protocol is a run of the system, and the router's stock budget grows
by no more than the vault's. -/
theorem exec_advances {tx : Tx d.system μ} (h : exec d w tx = .ok w') :
    ∃ amount, w'.router.totalStockBudgetDelivered =
        w.router.totalStockBudgetDelivered+amount ∧
      Advances d.system w.system w'.system amount := by
  cases tx with
  | system tx =>
    simp only [exec,bind_eq_ok,mapError_eq_ok,pure_eq_ok] at h
    obtain ⟨u,hu,rfl⟩ := h
    exact ⟨0,rfl,.of_runs (.of_exec tx hu)⟩
  | trade adapter memory trade =>
    simp only [exec,bind_eq_ok,mapError_eq_ok,pure_eq_ok] at h
    obtain ⟨u,hu,rfl⟩ := h
    exact trade_advances (u := w.atRouter memory) rfl hu
  | pause sender =>
    simp only [exec,bind_eq_ok,mapError_eq_ok,pure_eq_ok] at h
    obtain ⟨r,hr,rfl⟩ := h
    obtain ⟨_,_,rfl⟩ := TradeRouter.pause_kept hr
    exact ⟨0,rfl,.of_runs (.refl _)⟩
  | unpause sender =>
    simp only [exec,bind_eq_ok,mapError_eq_ok,pure_eq_ok] at h
    obtain ⟨r,hr,rfl⟩ := h
    obtain ⟨_,_,rfl⟩ := TradeRouter.unpause_kept hr
    exact ⟨0,rfl,.of_runs (.refl _)⟩
  | ownership sender call =>
    simp only [exec,bind_eq_ok,mapError_eq_ok,pure_eq_ok] at h
    obtain ⟨r,hr,rfl⟩ := h
    obtain ⟨_,_,rfl⟩ := TradeRouter.ownerCall_kept hr
    exact ⟨0,rfl,.of_runs (.refl _)⟩

/-- The router counts its trades whatever else happens. -/
theorem exec_counted {tx : Tx d.system μ}
    (hc : TradeRouter.Counted w.router ∧ TradeRouter.Detailed w.router.events)
    (h : exec d w tx = .ok w') :
    TradeRouter.Counted w'.router ∧ TradeRouter.Detailed w'.router.events := by
  have howner : ∀ r : TradeRouter.Storage,
      (∃ o p, r = { w.router with ownership := o, paused := p }) →
      TradeRouter.Counted r ∧ TradeRouter.Detailed r.events := by
    rintro r ⟨o,p,rfl⟩
    exact ⟨{ hc.1 with },hc.2⟩
  cases tx with
  | system tx =>
    simp only [exec,bind_eq_ok,mapError_eq_ok,pure_eq_ok] at h
    obtain ⟨u,-,rfl⟩ := h
    exact hc
  | trade adapter memory trade =>
    simp only [exec,bind_eq_ok,mapError_eq_ok,pure_eq_ok] at h
    obtain ⟨u,hu,rfl⟩ := h
    have hopen : TradeRouter.execOpen d.router (w.atRouter memory)
        (.trade (adapter.swapExactInput w.system.timestamp) trade) = .ok u := hu
    exact TradeRouter.execOpen_counted hc.1 hc.2 hopen
  | pause sender =>
    simp only [exec,bind_eq_ok,mapError_eq_ok,pure_eq_ok] at h
    obtain ⟨r,hr,rfl⟩ := h
    exact howner r (TradeRouter.pause_kept hr)
  | unpause sender =>
    simp only [exec,bind_eq_ok,mapError_eq_ok,pure_eq_ok] at h
    obtain ⟨r,hr,rfl⟩ := h
    exact howner r (TradeRouter.unpause_kept hr)
  | ownership sender call =>
    simp only [exec,bind_eq_ok,mapError_eq_ok,pure_eq_ok] at h
    obtain ⟨r,hr,rfl⟩ := h
    exact howner r (TradeRouter.ownerCall_kept hr)

/-- What holds in every reachable state: the vault kept or spent what the router delivered. -/
structure Backed (d : Deployment) (w : World) : Prop where
  system : Coordinator.Reachable d.system w.system
  secured : Coordinator.Secured d.system w.system
  delivered : w.router.totalStockBudgetDelivered ≤ Coordinator.budget d.system w.system

theorem Initial.backed (h : Initial d w) : Backed d w := by
  obtain ⟨o,ho⟩ := h.router
  refine ⟨Machine.Reachable.of_init h.system,h.system.secured,?_⟩
  rw [ho]
  exact Nat.zero_le _

theorem exec_backed {tx : Tx d.system μ} (hb : Backed d w) (h : exec d w tx = .ok w') :
    Backed d w' := by
  obtain ⟨amount,hamount,ha⟩ := exec_advances h
  refine ⟨hb.system.runs ha.runs,ha.secured hb.secured,?_⟩
  have hbudget := ha.budget hb.secured
  have hdelivered := hb.delivered
  omega

theorem Reachable.backed (h : Reachable d μ w) : Backed d w :=
  Machine.Reachable.invariant (fun _ hi => hi.backed) (fun _ _ _ hs hx => exec_backed hs hx) h

theorem Reachable.counted (h : Reachable d μ w) :
    TradeRouter.Counted w.router ∧ TradeRouter.Detailed w.router.events := by
  refine Machine.Reachable.invariant
    (I := fun w => TradeRouter.Counted w.router ∧ TradeRouter.Detailed w.router.events) ?_
    (fun _ _ _ hs hx => exec_counted hs hx) h
  intro w hi
  obtain ⟨o,ho⟩ := hi.router
  rw [ho]
  exact ⟨⟨rfl,rfl,rfl,rfl,rfl,rfl,rfl,rfl⟩,rfl,rfl,rfl⟩

/-- What holders claimed, what was recovered and what is still owed is what was funded. -/
theorem stock_accounted {s : Coordinator.System} {u : Coordinator.World}
    (h : Coordinator.Reachable s u) (token : Address) :
    ∑ c, (((ClaimManager.claims u.manager.events c token).map Prod.snd).sum+
        (u.manager.assetFunding c token).recovered)+u.manager.totalOutstanding token =
      u.stock.distributionReleased token := by
  have hs := h.manager.solvent
  have howed : u.manager.totalOutstanding token =
      ∑ c, (u.manager.assetFunding c token).outstanding := hs.outstanding token
  rw [h.conserved.funded token,howed,← Finset.sum_add_distrib]
  apply Finset.sum_congr rfl
  intro c _
  have hcovered := (hs.sound c token).covered
  have hclaimed := hs.claimedSum c token
  simp only [ClaimManager.AssetFunding.outstanding]
  simp only [Coordinator.World.atManager] at hcovered hclaimed ⊢
  omega

/-- In every reachable state of the protocol, whatever the swap adapters make of the system in
the middle of a trade: the system is in one of its own reachable states; the stock budgets that
the trades announce are in the vault, or they were spent on recorded acquisitions; and what was
claimed, recovered or is owed of a stock token is no more than eighty percent of what these
acquisitions brought in. -/
theorem stock_budget_backed (h : Reachable d μ w) :
    Coordinator.Reachable d.system w.system ∧
    TradeRouter.total TradeRouter.Event.stockBudget w.router.events ≤
      (w.system.tokens d.system.vault.weth).balanceOf d.system.vault.here+
      ∑ i ∈ Finset.Icc 1 w.system.coordinator.acquisitionCount,
        (w.system.coordinator.acquisitions i).wethSpent ∧
    ∀ token, 100*(∑ c, (((ClaimManager.claims w.system.manager.events c token).map
        Prod.snd).sum+(w.system.manager.assetFunding c token).recovered)+
        w.system.manager.totalOutstanding token) ≤
      80*∑ i ∈ Finset.Icc 1 w.system.coordinator.acquisitionCount with
        (w.system.coordinator.acquisitions i).stockToken = token,
        (w.system.coordinator.acquisitions i).acquiredStock := by
  have hb := h.backed
  refine ⟨hb.system,?_,fun token => ?_⟩
  · rw [← h.counted.1.totalStockBudgetDelivered,← hb.system.accounted]
    exact hb.delivered
  · rw [stock_accounted hb.system token]
    have hreleased := hb.system.conserved.released_le token
    exact (Nat.mul_le_mul_left 100 hreleased).trans (hb.system.share_le token)

theorem samplePair_distinct : (60 : Address) ≠ 40 := by decide

theorem sampleAdapter_distinct : (61 : Address) ∉ [(60 : Address),40] := by decide

/-- The sample system with a router in front of it; WETH is token `40`, BPS token `60`. -/
def sample : Deployment where
  system := Coordinator.sample
  router := ⟨300,60,40,61,201,by decide,samplePair_distinct,sampleAdapter_distinct,by decide⟩
  weth := rfl
  budget := rfl
  router_distinct := by decide

/-- A swap adapter that sells at ten to one; in its first call the operator acquires stock with
the budget that was just delivered. -/
def sampleScript : List Behaviour :=
  [⟨[.foreign (.token 40 (.transferFrom 61 300 63 9700)),.foreign (.token 60 (.transfer 61 2 970)),
      .executeAndRecordAcquisition 11 50 150 1 0
        ⟨[.token 40 (.transferFrom 41 201 43 150),.token 50 (.mint 43 201 100)],some 100⟩],some 970⟩,
    ⟨[.foreign (.token 40 (.transferFrom 61 300 63 100)),
      .foreign (.token 60 (.transfer 61 300 10))],some 10⟩]

/-- One buy of ten thousand WETH units by account `1`. -/
def oneBuy : World :=
  Machine.run (exec sample)
    ⟨⟨0,fun _ => Token.empty,.deployed 200,.deployed,.deployed⟩,.deployed 9⟩
    [.system (.foreign (.token 40 (.mint 4 1 10000))),
      .system (.foreign (.token 40 (.approve 1 300 10000))),
      .system (.foreign (.token 60 (.mint 4 61 5000))),
      .trade (scripted Coordinator.sample) sampleScript (.buy 1 10000 900 1 2 0)]

theorem oneBuy_reachable : Reachable sample (List Behaviour) oneBuy :=
  (Machine.Reachable.of_init
    ⟨⟨rfl,rfl,rfl,by decide,by decide,fun _ _ _ _ => rfl,fun _ => rfl⟩,⟨9,rfl⟩⟩).run _

/-- Of the two hundred units delivered, fifty are in the vault. -/
theorem oneBuy_backed :
    TradeRouter.total TradeRouter.Event.stockBudget oneBuy.router.events = 200 ∧
      (oneBuy.system.tokens 40).balanceOf 201 = 50 ∧
      200 ≤ 50+∑ i ∈ Finset.Icc 1 oneBuy.system.coordinator.acquisitionCount,
        (oneBuy.system.coordinator.acquisitions i).wethSpent := by
  have htotal : TradeRouter.total TradeRouter.Event.stockBudget oneBuy.router.events = 200 := by
    decide +kernel
  have hbalance : (oneBuy.system.tokens 40).balanceOf 201 = 50 := by decide +kernel
  have h := (stock_budget_backed oneBuy_reachable).2.1
  rw [htotal] at h
  exact ⟨htotal,hbalance,hbalance ▸ h⟩

end Protocol
end BpsProtocol
