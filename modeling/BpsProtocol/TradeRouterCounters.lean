import BpsProtocol.TradeRouterSteps

/-! The cumulative counters of the router are the sums over its trades. -/
namespace BpsProtocol
namespace TradeRouter

open Checked Mapping Erc20

/-- The figures that the two trade events report; the other events report none. -/
def Event.buys : Event → ℕ
  | .officialBuy _ _ _ _ _ _ _ _ _ _ _ => 1
  | _ => 0

def Event.sells : Event → ℕ
  | .officialSell _ _ _ _ _ _ _ _ _ _ _ => 1
  | _ => 0

def Event.grossWethInput : Event → ℕ
  | .officialBuy _ _ _ gross _ _ _ _ _ _ _ => gross
  | _ => 0

def Event.grossBpsInput : Event → ℕ
  | .officialSell _ _ _ gross _ _ _ _ _ _ _ => gross
  | _ => 0

def Event.stockBudget : Event → ℕ
  | .officialBuy _ _ _ _ stockBudget _ _ _ _ _ _ => stockBudget
  | .officialSell _ _ _ _ _ stockBudget _ _ _ _ _ => stockBudget
  | _ => 0

def Event.burnBudget : Event → ℕ
  | .officialBuy _ _ _ _ _ burnBudget _ _ _ _ _ => burnBudget
  | .officialSell _ _ _ _ _ _ burnBudget _ _ _ _ => burnBudget
  | _ => 0

def Event.bpsBurned : Event → ℕ
  | .officialBuy _ _ _ _ _ _ _ _ bpsBurned _ _ => bpsBurned
  | .officialSell _ _ _ _ _ _ _ _ bpsBurned _ _ => bpsBurned
  | _ => 0

/-- The sum of a figure over all trades. -/
def total (figure : Event → ℕ) (events : List Event) : ℕ := (events.map figure).sum

/-- Every cumulative counter is the sum of its figure over the trades. -/
structure Counted (r : Storage) : Prop where
  tradeCount : r.tradeCount = r.totalBuys+r.totalSells
  totalBuys : r.totalBuys = total Event.buys r.events
  totalSells : r.totalSells = total Event.sells r.events
  totalGrossWethInFromBuys : r.totalGrossWethInFromBuys = total Event.grossWethInput r.events
  totalGrossBpsInFromSells : r.totalGrossBpsInFromSells = total Event.grossBpsInput r.events
  totalStockBudgetDelivered : r.totalStockBudgetDelivered = total Event.stockBudget r.events
  totalBurnBudgetConsumed : r.totalBurnBudgetConsumed = total Event.burnBudget r.events
  totalBpsBurned : r.totalBpsBurned = total Event.bpsBurned r.events

/-- A figure over a trade and its details. -/
theorem total_trade (figure : Event → ℕ) (e : Event) (tradeId stock burn burned : ℕ)
    (recipient : Address) (events : List Event) :
    total figure (e::((if burned = 0 then [] else [.bpsRepurchasedAndBurned tradeId burn burned]) ++
      ((if stock = 0 then [] else [.stockBudgetDelivered tradeId recipient stock]) ++ events))) =
    figure e+((if burned = 0 then 0 else figure (.bpsRepurchasedAndBurned tradeId burn burned))+
      ((if stock = 0 then 0 else figure (.stockBudgetDelivered tradeId recipient stock))+
        total figure events)) := by
  split <;> split <;> simp [total]

/-- A counter that grows by the figure of each trade stays its sum, as the details of the
trade report none. -/
theorem total_counted {figure : Event → ℕ} {e : Event} {tradeId stock burn burned n m : ℕ}
    {recipient : Address} {events : List Event} (hn : n = total figure events)
    (hm : m = n+figure e)
    (hstock : figure (.stockBudgetDelivered tradeId recipient stock) = 0)
    (hburn : figure (.bpsRepurchasedAndBurned tradeId burn burned) = 0) :
    m = total figure (e::((if burned = 0 then [] else
      [.bpsRepurchasedAndBurned tradeId burn burned]) ++
      ((if stock = 0 then [] else [.stockBudgetDelivered tradeId recipient stock]) ++ events))) := by
  rw [total_trade,hstock,hburn,ite_self,ite_self,hm,hn]
  omega

variable {γ : Type} {d : Deployment} {swapExactInput : Adapter γ} {w w' : World γ}
  {sender recipient : Address}
  {gross minGross minUser minBurn deadline proceeds userOutput burned : ℕ}

theorem Bought.counted (hr : Counted w.router)
    (h : Bought d swapExactInput w w' sender gross minUser minBurn recipient deadline userOutput
      burned) : Counted w'.router := by
  obtain ⟨_,_,_,_,_,_,-,-,-,-,-,hrouter⟩ := h.steps
  have hcount := hr.tradeCount
  rw [hrouter]
  exact
    { tradeCount := by
        dsimp only
        omega
      totalBuys := total_counted hr.totalBuys rfl rfl rfl
      totalSells := total_counted hr.totalSells rfl rfl rfl
      totalGrossWethInFromBuys := total_counted hr.totalGrossWethInFromBuys rfl rfl rfl
      totalGrossBpsInFromSells := total_counted hr.totalGrossBpsInFromSells rfl rfl rfl
      totalStockBudgetDelivered := total_counted hr.totalStockBudgetDelivered rfl rfl rfl
      totalBurnBudgetConsumed := total_counted hr.totalBurnBudgetConsumed rfl rfl rfl
      totalBpsBurned := total_counted hr.totalBpsBurned rfl rfl rfl }

theorem Sold.counted (hr : Counted w.router)
    (h : Sold d swapExactInput w w' sender gross minGross minUser minBurn recipient deadline proceeds
      userOutput burned) : Counted w'.router := by
  obtain ⟨_,_,_,_,_,_,-,-,-,-,-,-,hrouter⟩ := h.steps
  have hcount := hr.tradeCount
  rw [hrouter]
  exact
    { tradeCount := by
        dsimp only
        omega
      totalBuys := total_counted hr.totalBuys rfl rfl rfl
      totalSells := total_counted hr.totalSells rfl rfl rfl
      totalGrossWethInFromBuys := total_counted hr.totalGrossWethInFromBuys rfl rfl rfl
      totalGrossBpsInFromSells := total_counted hr.totalGrossBpsInFromSells rfl rfl rfl
      totalStockBudgetDelivered := total_counted hr.totalStockBudgetDelivered rfl rfl rfl
      totalBurnBudgetConsumed := total_counted hr.totalBurnBudgetConsumed rfl rfl rfl
      totalBpsBurned := total_counted hr.totalBpsBurned rfl rfl rfl }

end TradeRouter
end BpsProtocol
