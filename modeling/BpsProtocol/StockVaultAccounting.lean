import BpsProtocol.Lib.Machine
import BpsProtocol.StockVault

/-! The books of the vault over whole runs.
Each acquisition credits what the balances show it brought in, and splits it.  What others
give the vault for nothing is never credited, so it is never released. -/
namespace BpsProtocol
namespace StockVault

open Checked Mapping Erc20

/-- A call on one token by an account other than the vault. -/
def outside (d : Deployment) (l : Ledger) (c : Address × Erc20.Call) :
    Except Erc20.Error Ledger := do
  revertIf (c.2.sender = d.here) (.invalidSender d.here)
  l.call c.1 c.2

/-- What one call of the adapter does: token calls of any other accounts, each of which may
fail, and at last a report or a revert. -/
structure Behaviour where
  calls : List (Address × Erc20.Call)
  reported : Option ℕ

def Behaviour.acquireStock (b : Behaviour) (d : Deployment) : Adapter Unit :=
  fun _ _ _ _ chain => b.reported.map fun reported =>
    (reported,(Machine.run (outside d) chain.1 b.calls,()))

/-- A transaction at the current time; `token` is a third party's own call. -/
inductive Tx
  | elapse (seconds : ℕ)
  | token (asset : Address) (call : Erc20.Call)
  | executeAcquisition (sender stockToken : Address) (wethAmountIn minStockOut deadline : ℕ)
      (adapter : Behaviour)
  | releaseToDistributionCoordinator (sender stockToken : Address) (amount : ℕ)

def exec (d : Deployment) (w : World Unit) : Tx → Except Error (World Unit)
  | .elapse seconds => .ok { w with timestamp := w.timestamp+seconds }
  | .token asset call => do
    let tokens ← (outside d w.tokens (asset,call)).mapError .token
    return { w with tokens }
  | .executeAcquisition sender stockToken wethAmountIn minStockOut deadline adapter => do
    let (_,w') ← executeAcquisition d (adapter.acquireStock d) w sender stockToken wethAmountIn
      minStockOut deadline
    return w'
  | .releaseToDistributionCoordinator sender stockToken amount =>
    releaseToDistributionCoordinator d w sender stockToken amount

/-- The vault was just deployed; budget and donations may already sit at its address. -/
structure Initial (d : Deployment) (w : World Unit) : Prop where
  here_ne_zero : d.here ≠ 0
  stock : w.stock = .deployed
  closed : w.tokens.Closed d.here
  unspent : ∀ token, (w.tokens token).outflows d.here = []

/-- What one transaction gives the vault for nothing: a third party's call whatever it
adds, an acquisition whatever it adds beside the bought token and the budget. -/
def donation (d : Deployment) (w : World Unit) (tx : Tx) (token : Address) : ℕ :=
  let gain := ((Machine.commit (exec d) w tx).tokens token).balanceOf d.here-
    (w.tokens token).balanceOf d.here
  match tx with
  | .token _ _ => gain
  | .executeAcquisition _ stockToken _ _ _ _ =>
    if token = stockToken ∨ token = d.weth then 0 else gain
  | _ => 0

/-- All donations of a run. -/
def donated (d : Deployment) (token : Address) : World Unit → List Tx → ℕ
  | _,[] => 0
  | w,tx::txs => donation d w tx token+donated d token (Machine.commit (exec d) w tx) txs

def Event.acquires (token : Address) : Event → Bool
  | .stockAcquired _ stockToken _ _ _ _ _ => stockToken = token
  | _ => false

/-- The number of acquisitions of a token so far. -/
def Storage.acquisitions (v : Storage) (token : Address) : ℕ :=
  v.events.countP (Event.acquires token)

variable {d : Deployment} {w w' w₀ : World Unit} {l l' : Ledger} {b : Behaviour}
  {sender stockToken target : Address} {wethAmountIn minStockOut deadline amount acquired : ℕ}

/-- An outside call reaches one token at most. -/
theorem outside_ok {c : Address × Erc20.Call} (h : outside d l c = .ok l') (x : Address) :
    l' x = l x ∨ (c.2.sender ≠ d.here ∧ c.2.exec (l x) = .ok (l' x)) := by
  simp only [outside,Ledger.call,bind_eq_ok,revertIf_eq_ok,exists_const,pure_eq_ok] at h
  obtain ⟨hne,t,ht,rfl⟩ := h
  by_cases hx : x = c.1
  · subst hx
    exact Or.inr ⟨hne,by rw [set_same]; exact ht⟩
  · exact Or.inl (set_other t hx)

/-- A token in which the vault approved nobody is kept through any outside calls. -/
theorem outside_kept (h0 : d.here ≠ 0) {x : Address} (hx : (l x).Closed d.here)
    (calls : List (Address × Erc20.Call)) :
    Call.Kept d.here (l x) (Machine.run (outside d) l calls x) := by
  refine Machine.run_preserves (I := fun u : Ledger => Call.Kept d.here (l x) (u x)) ?_ (.refl hx)
    calls
  intro u c u' hu hc
  rcases outside_ok hc x with heq | ⟨hne,hexec⟩
  · rw [heq]
    exact hu
  · exact hu.trans (Call.exec_kept h0 hne hu.closed hexec)

/-- In a token in which the vault approved the adapter alone, outside calls spend at most
that allowance. -/
theorem outside_spent (h0 : d.here ≠ 0) {x : Address}
    (hx : ∀ s, s ≠ d.acquisitionAdapter → (l x).allowance d.here s = 0)
    (calls : List (Address × Erc20.Call)) :
    Call.Spent d.here d.acquisitionAdapter (l x) (Machine.run (outside d) l calls x) := by
  refine Machine.run_preserves
    (I := fun u : Ledger => Call.Spent d.here d.acquisitionAdapter (l x) (u x)) ?_ (.refl hx) calls
  intro u c u' hu hc
  rcases outside_ok hc x with heq | ⟨hne,hexec⟩
  · rw [heq]
    exact hu
  · exact hu.trans (Call.exec_spent h0 hne hu.others hexec)

/-- What a conversion leaves of the vault's tokens. -/
structure Bought (d : Deployment) (l l' : Ledger) (wethAmountIn : ℕ) : Prop where
  closed : l'.Closed d.here
  kept : ∀ x, x ≠ d.weth → Call.Kept d.here (l x) (l' x)
  sent : wethAmountIn < Token.infinite →
    (l' d.weth).sent d.here = (l d.weth).sent d.here+wethAmountIn

theorem Converted.bought {others : Unit} (h0 : d.here ≠ 0) (hclosed : w.tokens.Closed d.here)
    (h : Converted d (b.acquireStock d) w stockToken wethAmountIn minStockOut deadline acquired l
      others) : Bought d w.tokens l wethAmountIn := by
  obtain ⟨approved,called,happ,hcall,hclear⟩ := h.called
  simp only [Behaviour.acquireStock,Option.map_eq_some_iff,Prod.mk.injEq] at hcall
  obtain ⟨_,-,-,rfl,-⟩ := hcall
  have ha := Ledger.approve_ok happ
  have hc := Ledger.approve_ok hclear
  have hspent := outside_spent (l := approved) (x := d.weth) h0 (fun s hs => by
    rw [(Ledger.approve_frame happ).2,if_neg (fun e => hs e.2.2)]
    exact hclosed _ s) b.calls
  have hkept : ∀ x, x ≠ d.weth → Call.Kept d.here (w.tokens x) (l x) := by
    intro x hx
    have hx' : approved x = w.tokens x := by rw [ha,set_other _ hx]
    rw [hc,set_other _ hx,← hx']
    exact outside_kept h0 (by rw [hx']; exact hclosed x) b.calls
  refine ⟨fun x s => ?_,hkept,fun hlt => ?_⟩
  · by_cases hx : x = d.weth
    · subst hx
      rw [(Ledger.approve_frame hclear).2]
      by_cases hs : s = d.acquisitionAdapter
      · rw [if_pos ⟨rfl,rfl,hs⟩]
      · rw [if_neg (fun e => hs e.2.2)]
        exact hspent.others s hs
    · exact (hkept x hx).closed s
  · have hallow : (approved d.weth).allowance d.here d.acquisitionAdapter = wethAmountIn := by
      rw [(Ledger.approve_frame happ).2,if_pos ⟨rfl,rfl,rfl⟩]
    obtain ⟨hbal₁,-,htr₁⟩ := (Ledger.approve_frame happ).1 d.weth
    obtain ⟨hbal₂,-,htr₂⟩ := (Ledger.approve_frame hclear).1 d.weth
    have hbudget := hspent.budget (by rw [hallow]; exact hlt)
    have hnet := hspent.net
    have hweth := h.weth
    have hsent₁ : (approved d.weth).sent d.here = (w.tokens d.weth).sent d.here := by
      rw [Token.sent,htr₁,Token.sent]
    have hsent₂ : (l d.weth).sent d.here =
        (Machine.run (outside d) approved b.calls d.weth).sent d.here := by
      rw [Token.sent,htr₂,Token.sent]
    rw [hallow,hsent₁] at hbudget
    rw [hbal₁,hsent₁] at hnet
    rw [hbal₂] at hweth
    omega

/-- A delivery out of the vault, an empty one included. -/
structure Delivered (d : Deployment) (l l' : Ledger) (token target : Address) (amount : ℕ) :
    Prop where
  closed : l'.Closed d.here
  others : ∀ x, x ≠ token → l' x = l x
  balance : (l' token).balanceOf d.here+amount = (l token).balanceOf d.here
  paid : ∀ a, (l' token).paidTo d.here a =
    (l token).paidTo d.here a+(if a = target then amount else 0)

theorem transferPositive_delivered (hne : target ≠ d.here) (hclosed : l.Closed d.here)
    (h : l.transferPositive stockToken d.here target amount = .ok l') :
    Delivered d l l' stockToken target amount := by
  rcases Ledger.transferPositive_ok h with ⟨-,h⟩ | ⟨rfl,rfl⟩
  · obtain ⟨-,-,hp⟩ := Ledger.transfer_ok h
    have hb := hp.moved.balances d.here
    rw [if_pos rfl,if_neg (Ne.symm hne)] at hb
    exact ⟨hp.closed hclosed,hp.others,hb,fun a => by rw [hp.moved.paidTo_eq]; simp⟩
  · exact ⟨hclosed,fun _ _ => rfl,rfl,fun a => by simp⟩

/-- The books of the vault, given what was donated since the start. -/
structure Accounts (d : Deployment) (w₀ : World Unit) (given : Address → ℕ) (w : World Unit) :
    Prop where
  closed : w.tokens.Closed d.here
  split : ∀ token, w.stock.distributionAllocated token+w.stock.reserveAllocated token =
    w.stock.totalStockAcquired token
  released : ∀ token, w.stock.distributionReleased token ≤ w.stock.distributionAllocated token
  floor : ∀ token, 100*w.stock.distributionAllocated token ≤ 80*w.stock.totalStockAcquired token
  rounding : ∀ token, 80*w.stock.totalStockAcquired token ≤
    100*w.stock.distributionAllocated token+99*w.stock.acquisitions token
  reservePaid : ∀ token, token ≠ d.weth →
    (w.tokens token).paidTo d.here d.reserveRecipient = w.stock.reserveAllocated token
  coordinatorPaid : ∀ token, token ≠ d.weth →
    (w.tokens token).paidTo d.here d.distributionFundingCoordinator =
      w.stock.distributionReleased token
  custody : ∀ token, token ≠ d.weth →
    (w.tokens token).balanceOf d.here+w.stock.distributionReleased token =
      (w₀.tokens token).balanceOf d.here+given token+w.stock.distributionAllocated token
  wethLeft : (w.tokens d.weth).balanceOf d.here+w.stock.totalWethSpent =
    (w₀.tokens d.weth).balanceOf d.here+given d.weth
  wethSent : w.stock.totalWethSpent < Token.infinite →
    (w.tokens d.weth).sent d.here = w.stock.totalWethSpent

theorem Initial.accounts (h : Initial d w) : Accounts d w (fun _ => 0) w := by
  have hpaid : ∀ token a, (w.tokens token).paidTo d.here a = 0 := fun token a => by
    simp [Token.paidTo,h.unspent token]
  refine ⟨h.closed,?_,?_,?_,?_,?_,?_,?_,?_,?_⟩ <;>
    simp [h.stock,Storage.deployed,Storage.acquisitions,hpaid,Token.sent_eq_sum_outflows,
      h.unspent d.weth]

/-- Third parties act on the tokens alone, and what they add is a donation. -/
theorem token_accounts (h0 : d.here ≠ 0) {asset : Address} {call : Erc20.Call}
    {given : Address → ℕ} (hs : Accounts d w₀ given w) (h : exec d w (.token asset call) = .ok w') :
    Accounts d w₀ (fun token => given token+donation d w (.token asset call) token) w' := by
  have hgain : ∀ token, donation d w (.token asset call) token =
      (w'.tokens token).balanceOf d.here-(w.tokens token).balanceOf d.here := fun token => by
    rw [donation,Machine.commit_ok h]
  simp only [exec,bind_eq_ok,mapError_eq_ok,pure_eq_ok] at h
  obtain ⟨tokens,hl,rfl⟩ := h
  have hkept : ∀ x, Call.Kept d.here (w.tokens x) (tokens x) := by
    intro x
    rcases outside_ok hl x with heq | ⟨hne,hexec⟩
    · rw [heq]
      exact .refl (hs.closed x)
    · exact Call.exec_kept h0 hne (hs.closed x) hexec
  refine ⟨fun x => (hkept x).closed,hs.split,hs.released,hs.floor,hs.rounding,?_,?_,?_,?_,?_⟩
  · intro x hx
    rw [(hkept x).paidTo]
    exact hs.reservePaid x hx
  · intro x hx
    rw [(hkept x).paidTo]
    exact hs.coordinatorPaid x hx
  · intro x hx
    have hb := (hkept x).balance
    have hc := hs.custody x hx
    rw [hgain]
    dsimp only
    omega
  · have hb := (hkept d.weth).balance
    have hw := hs.wethLeft
    rw [hgain]
    dsimp only
    omega
  · intro hlt
    rw [(hkept d.weth).sent]
    exact hs.wethSent hlt

theorem approved_ne_weth (h : d.isApprovedStockToken stockToken = true) : stockToken ≠ d.weth := by
  have hmem : stockToken ∈ d.approvedStockTokens := by
    simpa [Deployment.isApprovedStockToken] using h
  rintro rfl
  exact (d.basket_system _ hmem).2 (by simp)

/-- One floor of the split is off by less than a whole unit. -/
theorem distributionShare_bounds (n : ℕ) :
    100*distributionShare n ≤ 80*n ∧ 80*n ≤ 100*distributionShare n+99 := by
  unfold distributionShare distributionPercent splitDenominator
  omega

theorem acquisitions_of_acquired
    (h : executeAcquisition d (b.acquireStock d) w sender stockToken wethAmountIn minStockOut
      deadline = .ok (acquired,w')) (token : Address) :
    w'.stock.acquisitions token =
      w.stock.acquisitions token+(if token = stockToken then 1 else 0) := by
  unfold Storage.acquisitions
  rw [executeAcquisition_events h,List.countP_append,List.countP_cons]
  split <;> simp [Event.acquires,eq_comm (a := stockToken)]

/-- An acquisition credits what it brought in, and spends its input. -/
theorem executeAcquisition_accounts (h0 : d.here ≠ 0) {given : Address → ℕ} {adapter : Behaviour}
    (hs : Accounts d w₀ given w)
    (h : exec d w (.executeAcquisition sender stockToken wethAmountIn minStockOut deadline adapter) =
      .ok w') :
    Accounts d w₀ (fun token => given token+donation d w
      (.executeAcquisition sender stockToken wethAmountIn minStockOut deadline adapter) token) w' := by
  have hgain : ∀ token, donation d w (.executeAcquisition sender stockToken wethAmountIn
      minStockOut deadline adapter) token =
      if token = stockToken ∨ token = d.weth then 0
      else (w'.tokens token).balanceOf d.here-(w.tokens token).balanceOf d.here := fun token => by
    rw [donation,Machine.commit_ok h]
  simp only [exec,bind_eq_ok,pure_eq_ok] at h
  obtain ⟨⟨acquired,u⟩,hu,rfl⟩ := h
  dsimp only at hgain ⊢
  have ha := executeAcquisition_ok hu
  have hcount := acquisitions_of_acquired hu
  obtain ⟨tokens,hconv,hpaid⟩ := ha.converted
  have hb := hconv.bought h0 hs.closed
  have hweth := approved_ne_weth ha.approved
  have hreserve : d.reserveRecipient ≠ d.here := fun e => d.reserve_distinct (by simp [e])
  have hcoordinator : d.distributionFundingCoordinator ≠ d.reserveRecipient := fun e =>
    d.coordinator_distinct (by simp [e])
  have hd := transferPositive_delivered hreserve hb.closed hpaid
  have hle := distributionShare_le acquired
  have hbounds := distributionShare_bounds acquired
  refine ⟨hd.closed,fun x => ?_,fun x => ?_,fun x => ?_,fun x => ?_,fun x hx => ?_,fun x hx => ?_,
    fun x hx => ?_,?_,fun hlt => ?_⟩
  · have hsplit := hs.split x
    simp only [ha.distributionAllocated,ha.reserveAllocated,ha.totalStockAcquired,set_apply]
    split
    · subst_vars
      omega
    · exact hsplit
  · have hreleased := hs.released x
    simp only [ha.distributionAllocated,ha.distributionReleased,set_apply]
    split
    · subst_vars
      omega
    · exact hreleased
  · have hfloor := hs.floor x
    simp only [ha.distributionAllocated,ha.totalStockAcquired,set_apply]
    split
    · subst_vars
      omega
    · exact hfloor
  · have hrounding := hs.rounding x
    simp only [ha.distributionAllocated,ha.totalStockAcquired,hcount,set_apply]
    split
    · subst_vars
      omega
    · exact hrounding
  · have hprev := hs.reservePaid x hx
    rw [ha.reserveAllocated,set_apply]
    split
    · subst_vars
      rw [hd.paid,if_pos rfl,(hb.kept _ hx).paidTo,hprev]
    · rw [hd.others x ‹_›,(hb.kept x hx).paidTo,hprev]
  · have hprev := hs.coordinatorPaid x hx
    rw [ha.distributionReleased,← hprev]
    by_cases hk : x = stockToken
    · subst hk
      rw [hd.paid,if_neg hcoordinator,(hb.kept _ hx).paidTo,Nat.add_zero]
    · rw [hd.others x hk,(hb.kept x hx).paidTo]
  · have hprev := hs.custody x hx
    rw [hgain,ha.distributionReleased,ha.distributionAllocated,set_apply]
    by_cases hk : x = stockToken
    · subst hk
      have hbal := hd.balance
      have hstock := hconv.stock
      rw [if_pos rfl,if_pos (Or.inl rfl)]
      omega
    · have hbal := (hb.kept x hx).balance
      rw [if_neg hk,if_neg (not_or.mpr ⟨hk,hx⟩),hd.others x hk]
      omega
  · have hprev := hs.wethLeft
    have hspent := hconv.weth
    rw [hgain,if_pos (Or.inr rfl),ha.totalWethSpent,hd.others _ (Ne.symm hweth)]
    omega
  · rw [ha.totalWethSpent] at hlt ⊢
    rw [hd.others _ (Ne.symm hweth),hb.sent (by omega),hs.wethSent (by omega)]

/-- A release pays out of what is allocated. -/
theorem releaseToDistributionCoordinator_accounts {given : Address → ℕ}
    (hs : Accounts d w₀ given w)
    (h : exec d w (.releaseToDistributionCoordinator sender stockToken amount) = .ok w') :
    Accounts d w₀ given w' := by
  have hr := releaseToDistributionCoordinator_ok h
  have hevents := releaseToDistributionCoordinator_events h
  have hweth := approved_ne_weth hr.approved
  have hcoordinator : d.distributionFundingCoordinator ≠ d.here := fun e =>
    d.coordinator_distinct (by simp [e])
  have hreserve : d.reserveRecipient ≠ d.distributionFundingCoordinator := fun e =>
    d.coordinator_distinct (by simp [← e])
  have hd : Delivered d w.tokens w'.tokens stockToken d.distributionFundingCoordinator amount :=
    transferPositive_delivered hcoordinator hs.closed
      ((if_pos hr.amount_pos).trans hr.paid)
  have hle := hr.releasable
  refine ⟨hd.closed,fun x => ?_,fun x => ?_,fun x => ?_,fun x => ?_,fun x hx => ?_,fun x hx => ?_,
    fun x hx => ?_,?_,fun hlt => ?_⟩
  · rw [hr.distributionAllocated,hr.reserveAllocated,hr.totalStockAcquired]
    exact hs.split x
  · rw [hr.distributionAllocated,hr.distributionReleased,set_apply]
    split
    · subst_vars
      exact hle
    · exact hs.released x
  · rw [hr.distributionAllocated,hr.totalStockAcquired]
    exact hs.floor x
  · have hcount : w'.stock.acquisitions x = w.stock.acquisitions x := by
      rw [Storage.acquisitions,hevents,List.countP_cons]
      simp [Event.acquires,Storage.acquisitions]
    rw [hr.distributionAllocated,hr.totalStockAcquired,hcount]
    exact hs.rounding x
  · rw [hr.reserveAllocated,← hs.reservePaid x hx]
    by_cases hk : x = stockToken
    · subst hk
      rw [hd.paid,if_neg hreserve,Nat.add_zero]
    · rw [hd.others x hk]
  · have hprev := hs.coordinatorPaid x hx
    rw [hr.distributionReleased,set_apply]
    split
    · subst_vars
      rw [hd.paid,if_pos rfl,hprev]
    · rw [hd.others x ‹_›,hprev]
  · have hprev := hs.custody x hx
    rw [hr.distributionReleased,hr.distributionAllocated,set_apply]
    split
    · subst_vars
      have hbal := hd.balance
      omega
    · rw [hd.others x ‹_›]
      exact hprev
  · rw [hr.totalWethSpent,hd.others _ (Ne.symm hweth)]
    exact hs.wethLeft
  · rw [hr.totalWethSpent] at hlt ⊢
    rw [hd.others _ (Ne.symm hweth)]
    exact hs.wethSent hlt

theorem exec_accounts (h0 : d.here ≠ 0) {given : Address → ℕ} {tx : Tx}
    (hs : Accounts d w₀ given w) (h : exec d w tx = .ok w') :
    Accounts d w₀ (fun token => given token+donation d w tx token) w' := by
  cases tx with
  | elapse seconds =>
    cases h
    exact { hs with }
  | token asset call => exact token_accounts h0 hs h
  | executeAcquisition sender stockToken wethAmountIn minStockOut deadline adapter =>
    exact executeAcquisition_accounts h0 hs h
  | releaseToDistributionCoordinator sender stockToken amount =>
    exact releaseToDistributionCoordinator_accounts hs h

/-- A failed transaction gives nothing. -/
theorem donation_of_error {tx : Tx} {e : Error} (h : exec d w tx = .error e) (token : Address) :
    donation d w tx token = 0 := by
  unfold donation
  rw [Machine.commit_error h,Nat.sub_self]
  cases tx <;> simp

/-- The run lemma: the donations add up along the run. -/
theorem run_accounts (h0 : d.here ≠ 0) {given : Address → ℕ} (hs : Accounts d w₀ given w)
    (txs : List Tx) :
    Accounts d w₀ (fun token => given token+donated d token w txs)
      (Machine.run (exec d) w txs) := by
  induction txs generalizing w given with
  | nil => exact hs
  | cons tx txs ih =>
    have hstep : Accounts d w₀ (fun token => given token+donation d w tx token)
        (Machine.commit (exec d) w tx) := by
      cases hx : exec d w tx with
      | ok w' =>
        rw [Machine.commit_ok hx]
        exact exec_accounts h0 hs hx
      | error e =>
        rw [Machine.commit_error hx]
        simpa [donation_of_error hx] using hs
    have hrun := ih hstep
    simp only [Nat.add_assoc] at hrun
    exact hrun

/-- After every run, for each stock token: the two shares add up to what was acquired, the
rounding of `n` acquisitions stays below `n` units, what is allocated and not released is in
custody together with every donation, the reserve recipient got its share, and the counted
WETH is what left. -/
theorem vault_books_agree (h : Initial d w) (txs : List Tx) :
    let u := Machine.run (exec d) w txs
    (∀ token, d.isApprovedStockToken token = true →
      u.stock.distributionAllocated token+u.stock.reserveAllocated token =
        u.stock.totalStockAcquired token ∧
      u.stock.distributionReleased token ≤ u.stock.distributionAllocated token ∧
      u.stock.distributionAllocated token-u.stock.distributionReleased token ≤
        (u.tokens token).balanceOf d.here ∧
      100*u.stock.distributionAllocated token ≤ 80*u.stock.totalStockAcquired token ∧
      80*u.stock.totalStockAcquired token-100*u.stock.distributionAllocated token ≤
        99*u.stock.acquisitions token ∧
      (u.tokens token).paidTo d.here d.reserveRecipient = u.stock.reserveAllocated token ∧
      (u.tokens token).paidTo d.here d.distributionFundingCoordinator =
        u.stock.distributionReleased token ∧
      (u.tokens token).balanceOf d.here =
        (w.tokens token).balanceOf d.here+donated d token w txs+
          (u.stock.distributionAllocated token-u.stock.distributionReleased token)) ∧
    u.stock.totalWethSpent+(u.tokens d.weth).balanceOf d.here =
      (w.tokens d.weth).balanceOf d.here+donated d d.weth w txs ∧
    (u.stock.totalWethSpent < Token.infinite →
      (u.tokens d.weth).sent d.here = u.stock.totalWethSpent) := by
  intro u
  have hs : Accounts d w (fun token => 0+donated d token w txs) u :=
    run_accounts h.here_ne_zero h.accounts txs
  refine ⟨fun token htoken => ?_,?_,hs.wethSent⟩
  · have hweth := approved_ne_weth htoken
    have hreleased := hs.released token
    have hrounding := hs.rounding token
    have hcustody := hs.custody token hweth
    refine ⟨hs.split token,hreleased,by omega,hs.floor token,by omega,hs.reservePaid token hweth,
      hs.coordinatorPaid token hweth,by omega⟩
  · have hleft := hs.wethLeft
    omega

/-- A vault for runs on fixed inputs: WETH is token `40`, the one stock token `50`. -/
def sample : Deployment :=
  ⟨201,40,41,200,42,202,[50],by decide,by decide,by decide,by decide,by decide,by simp,by decide⟩

/-- A donation of seven units before an acquisition of `101`, half of whose share is released. -/
def sampleRun : List Tx :=
  [.token 40 (.mint 2 201 1000),.token 50 (.mint 3 201 7),
    .executeAcquisition 200 50 1000 1 0
      ⟨[(40,.transferFrom 41 201 43 1000),(50,.mint 43 201 101)],some 101⟩,
    .releaseToDistributionCoordinator 200 50 40]

theorem sampleRun_books :
    let u := Machine.run (exec sample) ⟨0,fun _ => Token.empty,(),.deployed⟩ sampleRun
    u.stock.totalStockAcquired 50 = 101 ∧ (u.tokens 50).paidTo 201 42 = 21 ∧
      (u.tokens 50).balanceOf 201 = 0+7+(80-40) ∧ (u.tokens 40).sent 201 = 1000 := by
  intro u
  have hbooks := vault_books_agree
    (⟨by decide,rfl,fun _ _ => rfl,fun _ => rfl⟩ :
      Initial sample ⟨0,fun _ => Token.empty,(),.deployed⟩) sampleRun
  obtain ⟨hsplit,-,-,-,-,hreserve,-,hcustody⟩ := hbooks.1 50 (by decide)
  refine ⟨by decide +kernel,hreserve.trans (by decide +kernel),hcustody.trans (by decide +kernel),
    (hbooks.2.2 (by decide +kernel)).trans (by decide +kernel)⟩

end StockVault
end BpsProtocol
