import BpsProtocol.TradeRouterCounters

/-! The detail events of the router against its trade events and counters.
An empty delivery and an empty burn are not announced, and a burn is empty also where its
whole budget was spent for nothing.  The adapters are of any kind here. -/
namespace BpsProtocol
namespace TradeRouter

open Checked Mapping Erc20

/-- The figures of the two detail events. -/
def Event.delivered : Event → ℕ
  | .stockBudgetDelivered _ _ amount => amount
  | _ => 0

def Event.repurchaseWeth : Event → ℕ
  | .bpsRepurchasedAndBurned _ wethSpent _ => wethSpent
  | _ => 0

def Event.repurchaseBurned : Event → ℕ
  | .bpsRepurchasedAndBurned _ _ bpsBurned => bpsBurned
  | _ => 0

/-- The burn budget of a trade that burned something. -/
def Event.effectiveBudget (e : Event) : ℕ := if e.bpsBurned = 0 then 0 else e.burnBudget

/-- The detail events add up to the figures of the trades. -/
structure Detailed (events : List Event) : Prop where
  delivered : total Event.delivered events = total Event.stockBudget events
  burned : total Event.repurchaseBurned events = total Event.bpsBurned events
  spent : total Event.repurchaseWeth events = total Event.effectiveBudget events

/-- A trade and its details, one event after the other. -/
theorem Detailed.traded {events : List Event} {e : Event} {tradeId stock burn burned : ℕ}
    (h : Detailed events) (recipient : Address) (hstock : e.stockBudget = stock)
    (hburn : e.burnBudget = burn) (hburned : e.bpsBurned = burned)
    (hplain : e.delivered = 0 ∧ e.repurchaseWeth = 0 ∧ e.repurchaseBurned = 0) :
    Detailed (e::((if burned = 0 then [] else [.bpsRepurchasedAndBurned tradeId burn burned]) ++
      ((if stock = 0 then [] else [.stockBudgetDelivered tradeId recipient stock]) ++
        events))) := by
  obtain ⟨h1,h2,h3⟩ := hplain
  constructor
  · rw [total_trade,total_trade,h.delivered,hstock,h1]
    simp only [Event.delivered,Event.stockBudget]
    split_ifs <;> omega
  · rw [total_trade,total_trade,h.burned,hburned,h3]
    simp only [Event.repurchaseBurned,Event.bpsBurned]
    split_ifs <;> omega
  · have he : e.effectiveBudget = if burned = 0 then 0 else burn := by
      rw [Event.effectiveBudget,hburned,hburn]
    have hb : (Event.bpsRepurchasedAndBurned tradeId burn burned).effectiveBudget = 0 := rfl
    have hs : (Event.stockBudgetDelivered tradeId recipient stock).effectiveBudget = 0 := rfl
    rw [total_trade,total_trade,h.spent,h2,he,hb,hs]
    simp only [Event.repurchaseWeth]
    split_ifs <;> omega

variable {γ : Type} {d : Deployment} {swapExactInput : Adapter γ} {w w' : World γ}
  {sender recipient : Address}
  {gross minGross minUser minBurn deadline proceeds userOutput burned : ℕ}

theorem Bought.detailed (hr : Detailed w.router.events)
    (h : Bought d swapExactInput w w' sender gross minUser minBurn recipient deadline userOutput
      burned) : Detailed w'.router.events := by
  obtain ⟨_,_,_,_,_,_,-,-,-,-,-,hrouter⟩ := h.steps
  rw [hrouter]
  exact hr.traded _ rfl rfl rfl ⟨rfl,rfl,rfl⟩

theorem Sold.detailed (hr : Detailed w.router.events)
    (h : Sold d swapExactInput w w' sender gross minGross minUser minBurn recipient deadline proceeds
      userOutput burned) : Detailed w'.router.events := by
  obtain ⟨_,_,_,_,_,_,-,-,-,-,-,-,hrouter⟩ := h.steps
  rw [hrouter]
  exact hr.traded _ rfl rfl rfl ⟨rfl,rfl,rfl⟩

/-- A transaction whose adapter is any function on the tokens and on what else it can
reach.  `elsewhere` is whatever happens outside the router between two of its calls. -/
inductive OpenTx (γ : Type)
  | trade (swapExactInput : Adapter γ) (trade : Trade)
  | pause (sender : Address)
  | unpause (sender : Address)
  | ownership (sender : Address) (call : Ownable.Call)
  | elsewhere (timestamp : ℕ) (tokens : Ledger) (others : γ)

def execOpen (d : Deployment) (w : World γ) : OpenTx γ → Except Error (World γ)
  | .trade swapExactInput trade => trade.exec d swapExactInput w
  | .pause sender => do
    let router ← pause w.router sender
    return { w with router }
  | .unpause sender => do
    let router ← unpause w.router sender
    return { w with router }
  | .ownership sender call => do
    let router ← changeOwnership w.router sender call
    return { w with router }
  | .elsewhere timestamp tokens others => .ok ⟨timestamp,tokens,others,w.router⟩

/-- The runs of a freshly deployed router with adapters of any kind. -/
abbrev OpenReachable (d : Deployment) : World γ → Prop :=
  Machine.Reachable (fun w : World γ => ∃ initialOwner, w.router = .deployed initialOwner)
    (execOpen d)

/-- What a transaction does to the router's storage, whoever the adapter is. -/
theorem execOpen_cases {tx : OpenTx γ} (h : execOpen d w tx = .ok w') :
    (∃ swapExactInput sender gross minUser minBurn recipient deadline userOutput burned,
      Bought d swapExactInput w w' sender gross minUser minBurn recipient deadline userOutput
        burned) ∨
    (∃ swapExactInput sender gross minGross minUser minBurn recipient deadline proceeds userOutput
      burned, Sold d swapExactInput w w' sender gross minGross minUser minBurn recipient deadline
        proceeds userOutput burned) ∨
    ∃ o p, w'.router = { w.router with ownership := o, paused := p } := by
  cases tx with
  | trade swapExactInput trade =>
    cases trade with
    | buy sender gross minUser minBurn recipient deadline =>
      simp only [execOpen,Trade.exec,bind_eq_ok,pure_eq_ok] at h
      obtain ⟨⟨⟨o,b⟩,u⟩,hu,rfl⟩ := h
      exact Or.inl ⟨_,_,_,_,_,_,_,_,_,buyExactWethForBps_ok hu⟩
    | sell sender gross minGross minUser minBurn recipient deadline =>
      simp only [execOpen,Trade.exec,bind_eq_ok,pure_eq_ok] at h
      obtain ⟨⟨⟨p,o,b⟩,u⟩,hu,rfl⟩ := h
      exact Or.inr (Or.inl ⟨_,_,_,_,_,_,_,_,_,_,_,sellExactBpsForWeth_ok hu⟩)
  | pause sender =>
    simp only [execOpen,bind_eq_ok,pure_eq_ok] at h
    obtain ⟨r,hr,rfl⟩ := h
    exact Or.inr (Or.inr (pause_kept hr))
  | unpause sender =>
    simp only [execOpen,bind_eq_ok,pure_eq_ok] at h
    obtain ⟨r,hr,rfl⟩ := h
    exact Or.inr (Or.inr (unpause_kept hr))
  | ownership sender call =>
    simp only [execOpen,bind_eq_ok,pure_eq_ok] at h
    obtain ⟨r,hr,rfl⟩ := h
    exact Or.inr (Or.inr (ownerCall_kept hr))
  | elsewhere timestamp tokens others =>
    cases h
    exact Or.inr (Or.inr ⟨_,_,rfl⟩)

/-- The counters and the details stay in step with the trades. -/
theorem execOpen_counted {tx : OpenTx γ} (hc : Counted w.router) (hd : Detailed w.router.events)
    (h : execOpen d w tx = .ok w') : Counted w'.router ∧ Detailed w'.router.events := by
  rcases execOpen_cases h with ⟨_,_,_,_,_,_,_,_,_,hb⟩ | ⟨_,_,_,_,_,_,_,_,_,_,_,hs⟩ | ⟨_,_,hr⟩
  · exact ⟨hb.counted hc,hb.detailed hd⟩
  · exact ⟨hs.counted hc,hs.detailed hd⟩
  · rw [hr]
    exact ⟨{ hc with },hd⟩

theorem OpenReachable.counted (h : OpenReachable d w) :
    Counted w.router ∧ Detailed w.router.events := by
  refine Machine.Reachable.invariant
    (I := fun w : World γ => Counted w.router ∧ Detailed w.router.events) ?_
    (fun _ _ _ hs hx => execOpen_counted hs.1 hs.2 hx) h
  rintro w ⟨o,ho⟩
  rw [ho]
  exact ⟨⟨rfl,rfl,rfl,rfl,rfl,rfl,rfl,rfl⟩,rfl,rfl,rfl⟩

/-- A transaction of the router with a scripted adapter is a run with an open one. -/
theorem exec_open {w w' : World (List Behaviour)} {tx : Tx} (h : exec d w tx = .ok w') :
    Machine.Runs (execOpen d) w w' := by
  cases tx with
  | elapse seconds =>
    cases h
    exact .of_exec (.elsewhere (w.timestamp+seconds) w.tokens w.others) rfl
  | trade script trade =>
    exact (Machine.Runs.of_exec (.elsewhere w.timestamp w.tokens script) rfl).trans
      (.of_exec (.trade (scripted d) trade) h)
  | pause sender => exact .of_exec (.pause sender) h
  | unpause sender => exact .of_exec (.unpause sender) h
  | ownership sender call => exact .of_exec (.ownership sender call) h
  | token asset call =>
    simp only [exec,bind_eq_ok,revertIf_eq_ok,mapError_eq_ok,exists_const,pure_eq_ok] at h
    obtain ⟨-,l,-,rfl⟩ := h
    exact .of_exec (.elsewhere w.timestamp l w.others) rfl

theorem Reachable.openReachable {w : World (List Behaviour)} (h : Reachable d w) : OpenReachable d w := by
  obtain ⟨w₀,txs,hinit,rfl⟩ := h
  have hruns : Machine.Runs (execOpen d) w₀ (Machine.run (exec d) w₀ txs) :=
    Machine.run_simulated (I := fun _ => True) id (fun _ _ _ _ hx => ⟨trivial,exec_open hx⟩)
      trivial txs
  have hstart : OpenReachable d w₀ := Machine.Reachable.of_init hinit.storage
  exact Machine.Reachable.runs hstart hruns

end TradeRouter
end BpsProtocol
