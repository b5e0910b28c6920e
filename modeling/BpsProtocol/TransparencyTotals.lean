import BpsProtocol.CoordinatorLog
import BpsProtocol.TradeRouterConservation
import BpsProtocol.TradeRouterDetails
import BpsProtocol.Transparency

/-! The totals of the report against the counters of the router and the stock vault.
All of them agree for every history but one: the spent repurchase budget is read off the
burn events, and a budget that bought nothing is consumed without one. -/
namespace BpsProtocol
namespace Transparency

open Checked

/-- The totals that the report shows, each beside the counter it is read against. -/
structure TotalsAgree (report : TransparencyReport) (router : TradeRouter.Storage)
    (vault : StockVault.Storage) : Prop where
  accrued : report.stockAcquisitionBudgetAccrued.value = router.totalStockBudgetDelivered
  delivered : report.stockBudgetDelivered.value = router.totalStockBudgetDelivered
  burned : report.totalBpsBurned.value = router.totalBpsBurned
  repurchaseBurned : report.repurchaseBpsBurned.value = router.totalBpsBurned
  buyVolume : report.buyVolume.value = router.totalGrossWethInFromBuys
  repurchaseSpent : report.repurchaseWethSpent.value = router.totalBurnBudgetConsumed
  acquisitionSpent : report.stockAcquisitionBudgetSpent.value = vault.totalWethSpent

variable {decodeEventLog : Decoder} {logs : List RawLog} {decoded : List DecodedEvent}
  {isFixture : Bool}

/-- A figure that is summed over what the loop collects, read off the events of one
contract. -/
theorem sum_collected {α β : Type} {extract : LogEvent → Option α}
    {collect : DecodedEvent → Option β} {value : β → ℕ} {figure : α → ℕ}
    (h : ∀ d, ((collect d).map value).getD 0 = ((extract d.event).map figure).getD 0)
    (decoded : List DecodedEvent) :
    ((decoded.filterMap collect).map value).sum =
      ((decoded.filterMap (extract ·.event)).map figure).sum := by
  induction decoded with
  | nil => rfl
  | cons d decoded ih =>
    have hd := h d
    rw [List.filterMap_cons,List.filterMap_cons]
    cases hc : collect d <;> cases he : extract d.event <;> rw [hc,he] at hd <;>
      simp only [Option.map_none,Option.map_some,Option.getD_none,Option.getD_some] at hd <;>
      simp only [List.map_cons,List.sum_cons,ih] <;> omega

/-- The figures of the report as sums over the events of the three contracts. -/
structure Figures (report : TransparencyReport) (router : List TradeRouter.Event)
    (coordinator : List Coordinator.Event) : Prop where
  accrued : report.stockAcquisitionBudgetAccrued.value =
    TradeRouter.total TradeRouter.Event.stockBudget router
  delivered : report.stockBudgetDelivered.value =
    TradeRouter.total TradeRouter.Event.delivered router
  burned : report.totalBpsBurned.value = TradeRouter.total TradeRouter.Event.bpsBurned router
  repurchaseBurned : report.repurchaseBpsBurned.value =
    TradeRouter.total TradeRouter.Event.repurchaseBurned router
  buyVolume : report.buyVolume.value =
    TradeRouter.total TradeRouter.Event.grossWethInput router
  repurchaseSpent : report.repurchaseWethSpent.value =
    TradeRouter.total TradeRouter.Event.repurchaseWeth router
  acquisitionSpent : report.stockAcquisitionBudgetSpent.value =
    (coordinator.map Coordinator.Event.wethSpent).sum

/-- A buy among the collected trades. -/
def buyOf (d : DecodedEvent) : Option OfficialTradeEvent := (tradeOf d).filter (·.kind = .buy)

theorem aggregate_figures (decoded : List DecodedEvent) (isFixture : Bool) :
    Figures (aggregate decoded isFixture) (decoded.filterMap (·.event.router?))
      (decoded.filterMap (·.event.coordinator?)) := by
  have hbuys : ∀ d : DecodedEvent, ((buyOf d).map (·.gross)).getD 0 =
      (d.event.router?.map TradeRouter.Event.grossWethInput).getD 0 := by
    rintro ⟨e | e | e | _,_,_,_,_⟩ <;> (try cases e) <;> rfl
  have hbuy : (aggregate decoded isFixture).buyVolume.value =
      TradeRouter.total TradeRouter.Event.grossWethInput (decoded.filterMap (·.event.router?)) := by
    show ((((decoded.filterMap tradeOf).filter (·.kind = .buy)).map (·.gross)).sum) = _
    rw [List.filter_filterMap]
    exact sum_collected hbuys decoded
  -- the other figures are read off one branch of the loop each
  refine ⟨?_,?_,?_,?_,hbuy,?_,?_⟩ <;> refine sum_collected ?_ decoded <;>
    rintro ⟨e | e | e | _,_,_,_,_⟩ <;> (try cases e) <;> rfl

/-- The figures do not depend on the order in which the logs were read. -/
theorem Figures.of_perm {report : TransparencyReport} {router router' : List TradeRouter.Event}
    {coordinator coordinator' : List Coordinator.Event} (h : Figures report router coordinator)
    (hr : router.Perm router') (hc : coordinator.Perm coordinator') :
    Figures report router' coordinator' := by
  have htotal : ∀ figure, TradeRouter.total figure router = TradeRouter.total figure router' :=
    fun figure => (hr.map figure).sum_eq
  exact ⟨h.accrued.trans (htotal _),h.delivered.trans (htotal _),h.burned.trans (htotal _),
    h.repurchaseBurned.trans (htotal _),h.buyVolume.trans (htotal _),
    h.repurchaseSpent.trans (htotal _),h.acquisitionSpent.trans (hc.map _).sum_eq⟩

/-- The effective budgets add up to the budgets exactly if each budget was effective. -/
theorem total_effectiveBudget_eq_iff (events : List TradeRouter.Event) :
    TradeRouter.total TradeRouter.Event.effectiveBudget events =
        TradeRouter.total TradeRouter.Event.burnBudget events ↔
      ∀ e ∈ events, e.bpsBurned = 0 → e.burnBudget = 0 := by
  have hle : ∀ e : TradeRouter.Event, e.effectiveBudget ≤ e.burnBudget := by
    intro e
    unfold TradeRouter.Event.effectiveBudget
    split <;> omega
  have hsum : ∀ l : List TradeRouter.Event, TradeRouter.total TradeRouter.Event.effectiveBudget l ≤
      TradeRouter.total TradeRouter.Event.burnBudget l :=
    fun l => List.sum_le_sum fun e _ => hle e
  induction events with
  | nil => simp [TradeRouter.total]
  | cons e events ih =>
    have he := hle e
    have hl := hsum events
    have heff : e.effectiveBudget = e.burnBudget ↔ (e.bpsBurned = 0 → e.burnBudget = 0) := by
      unfold TradeRouter.Event.effectiveBudget
      split <;> omega
    rw [List.forall_mem_cons]
    refine Iff.trans ?_ (and_congr heff ih)
    simp only [TradeRouter.total,List.map_cons,List.sum_cons] at hl ⊢
    omega

/-- The totals agree with the counters exactly if no trade spent a burn budget on nothing;
only the spent repurchase budget depends on that. -/
theorem totals_agree_iff {γ : Type} {d : TradeRouter.Deployment} {u : TradeRouter.World γ}
    {s : Coordinator.System} {w : Coordinator.World} {manager : List ClaimManager.Event}
    (hu : TradeRouter.OpenReachable d u) (hw : Coordinator.Reachable s w)
    (hread : HistoryRead decodeEventLog logs u.router.events w.coordinator.events manager) :
    TotalsAgree (aggregate (decodeLogs decodeEventLog logs) isFixture) u.router w.stock ↔
      ∀ e ∈ u.router.events, e.bpsBurned = 0 → e.burnBudget = 0 := by
  obtain ⟨hrouter,hcoordinator,-⟩ := hread.perms
  have hf := (aggregate_figures (decodeLogs decodeEventLog logs) isFixture).of_perm hrouter
    hcoordinator
  obtain ⟨hcounted,hdetailed⟩ := hu.counted
  have hspent : (aggregate (decodeLogs decodeEventLog logs) isFixture).repurchaseWethSpent.value =
      u.router.totalBurnBudgetConsumed ↔ ∀ e ∈ u.router.events, e.bpsBurned = 0 →
        e.burnBudget = 0 := by
    rw [hf.repurchaseSpent,hdetailed.spent,hcounted.totalBurnBudgetConsumed,
      total_effectiveBudget_eq_iff]
  constructor
  · exact fun h => hspent.mp h.repurchaseSpent
  · intro h
    refine ⟨?_,?_,?_,?_,?_,hspent.mpr h,?_⟩
    · rw [hf.accrued,hcounted.totalStockBudgetDelivered]
    · rw [hf.delivered,hdetailed.delivered,hcounted.totalStockBudgetDelivered]
    · rw [hf.burned,hcounted.totalBpsBurned]
    · rw [hf.repurchaseBurned,hdetailed.burned,hcounted.totalBpsBurned]
    · rw [hf.buyVolume,hcounted.totalGrossWethInFromBuys]
    · rw [hf.acquisitionSpent,hw.logged.spent]

/-- The logs of a router and of a coordinator, for runs on fixed inputs. -/
def routerEvents {γ : Type} (u : TradeRouter.World γ) (w : Coordinator.World) : List LogEvent :=
  u.router.events.map LogEvent.router ++ w.coordinator.events.map LogEvent.coordinator ++
    w.manager.events.map LogEvent.manager

/-- The report on those logs. -/
def routerReport {γ : Type} (u : TradeRouter.World γ) (w : Coordinator.World) :
    TransparencyReport :=
  aggregate (decodeLogs (sampleDecoder (routerEvents u w)) (sampleLogs (routerEvents u w))) false

/-- A buy whose burn budget bought something. -/
def oneBuy : TradeRouter.World (List TradeRouter.Behaviour) :=
  Machine.run (TradeRouter.exec TradeRouter.sample) TradeRouter.sampleStart
    [.trade TradeRouter.sampleScript (.buy 1 10000 900 1 2 0)]

theorem oneBuy_totals_agree :
    TotalsAgree (routerReport oneBuy Coordinator.oneFunded) oneBuy.router
      Coordinator.oneFunded.stock :=
  (totals_agree_iff (TradeRouter.Reachable.openReachable (TradeRouter.sampleStart_reachable.run _))
    Coordinator.oneFunded_reachable (sample_historyRead _ _ _)).mpr (by decide +kernel)

/-- A buy whose burn budget the adapter took and sent nothing for. -/
def emptyBurn : TradeRouter.World (List TradeRouter.Behaviour) :=
  Machine.run (TradeRouter.exec TradeRouter.sample) TradeRouter.sampleStart
    [.trade [⟨[.pull 40 63 9700,.transfer 60 2 970],some 970⟩,⟨[.pull 40 63 100],some 0⟩]
      (.buy 1 10000 900 0 2 0)]

/-- The router consumed the budget and announced no repurchase. -/
theorem emptyBurn_totals_differ :
    TradeRouter.OpenReachable TradeRouter.sample emptyBurn ∧
    Coordinator.Reachable Coordinator.sample Coordinator.oneFunded ∧
    HistoryRead (sampleDecoder (routerEvents emptyBurn Coordinator.oneFunded))
      (sampleLogs (routerEvents emptyBurn Coordinator.oneFunded)) emptyBurn.router.events
      Coordinator.oneFunded.coordinator.events Coordinator.oneFunded.manager.events ∧
    emptyBurn.router.totalBurnBudgetConsumed = 100 ∧
    (routerReport emptyBurn Coordinator.oneFunded).repurchaseWethSpent =
      ⟨0,.onchainVerified⟩ ∧
    ¬TotalsAgree (routerReport emptyBurn Coordinator.oneFunded) emptyBurn.router
      Coordinator.oneFunded.stock := by
  have hconsumed : emptyBurn.router.totalBurnBudgetConsumed = 100 := by decide +kernel
  have hreported : (routerReport emptyBurn Coordinator.oneFunded).repurchaseWethSpent =
      ⟨0,.onchainVerified⟩ := by
    decide +kernel
  refine ⟨TradeRouter.Reachable.openReachable (TradeRouter.sampleStart_reachable.run _),
    Coordinator.oneFunded_reachable,
    sample_historyRead _ _ _,hconsumed,hreported,fun h => ?_⟩
  have hspent := h.repurchaseSpent
  rw [hconsumed,hreported] at hspent
  cases hspent

end Transparency
end BpsProtocol
