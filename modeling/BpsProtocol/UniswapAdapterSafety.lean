import BpsProtocol.TradeRouterConservation
import BpsProtocol.UniswapAdapter

/-! Safety of the router's swaps through the adapter, against any venue.
The adapter checks the recipient, its own balances and its allowance; the router checks
what it spent.  Together they leave one outcome for each swap of a successful trade. -/
namespace BpsProtocol
namespace UniswapAdapter

open Checked Mapping Erc20

variable {γ : Type} {s : System} {a : Deployment} {exactInputSingle : Venue γ}
  {timestamp amountIn minOut deadline amountOut : ℕ}
  {sender tokenIn tokenOut recipient : Address} {l l' : Ledger} {g g' : γ}

/-- What a completed `swapExactInput` did. -/
structure Completed (a : Deployment) (exactInputSingle : Venue γ) (tokenIn tokenOut : Address)
    (amountIn minOut : ℕ) (recipient : Address) (l : Ledger) (g : γ) (amountOut : ℕ) (l' : Ledger)
    (g' : γ) : Prop where
  minimum : minOut ≤ amountOut
  output : (l' tokenOut).balanceOf recipient = (l tokenOut).balanceOf recipient+amountOut
  bps : (l' a.bps).balanceOf a.here = (l a.bps).balanceOf a.here
  weth : (l' a.weth).balanceOf a.here = (l a.weth).balanceOf a.here
  steps : ∃ pulled approved called params,
    l.transferFrom tokenIn a.here a.bpsTradeRouter a.here amountIn = .ok pulled ∧
    pulled.approve tokenIn a.here a.swapRouter02 amountIn = .ok approved ∧
    exactInputSingle params (approved,g) = some (amountOut,(called,g')) ∧
    called.approve tokenIn a.here a.swapRouter02 0 = .ok l'

theorem swapExactInput_ok
    (h : swapExactInput a exactInputSingle timestamp sender tokenIn tokenOut amountIn minOut recipient
      deadline (l,g) = .ok (amountOut,(l',g'))) :
    Completed a exactInputSingle tokenIn tokenOut amountIn minOut recipient l g amountOut l' g' := by
  simp only [swapExactInput,validateRecipient,venueSwap,bind_eq_ok,revertIf_eq_ok,mapError_eq_ok,
    sub_eq_ok,orRevert_eq_ok,exists_const,pure_eq_ok] at h
  obtain ⟨-,-,-,-,-,-,l₁,h₁,_,⟨-,rfl⟩,-,⟨r,l₂,o⟩,⟨l₃,h₃,⟨r',l₄,o'⟩,hcall,l₅,h₅,he⟩,_,⟨hle,rfl⟩,hreported,
    hmin,hbps,hweth,-,heq⟩ := h
  obtain ⟨rfl,hchain⟩ := Prod.mk.inj he
  obtain ⟨rfl,rfl⟩ := Prod.mk.inj hchain
  obtain ⟨rfl,hchain'⟩ := Prod.mk.inj heq
  obtain ⟨rfl,rfl⟩ := Prod.mk.inj hchain'
  have hr := not_not.mp hreported
  dsimp only at hr hle
  rw [← hr] at hcall
  exact ⟨by omega,by dsimp only; omega,not_not.mp hbps,not_not.mp hweth,l₁,l₃,l₄,_,h₁,h₃,hcall,h₅⟩

/-- The calls of the others never raise what the adapter allows. -/
theorem outsideCall_allowance_le {c : Address × Erc20.Call} (h : outsideCall s l c = .ok l')
    (x spender : Address) :
    (l' x).allowance s.adapter.here spender ≤ (l x).allowance s.adapter.here spender := by
  simp only [outsideCall,bind_eq_ok,revertIf_eq_ok,mapError_eq_ok,exists_const] at h
  obtain ⟨hout,h⟩ := h
  exact Ledger.call_allowance_le (fun he => hout (by simp [he])) h x spender

theorem scripted_allowance_le {params : ExactInputSingleParams} {script script' : List Behaviour}
    (h : scripted s params (l,script) = some (amountOut,(l',script'))) (x spender : Address) :
    (l' x).allowance s.adapter.here spender ≤ (l x).allowance s.adapter.here spender := by
  unfold scripted at h
  split at h
  · cases h
  · rename_i b rest _
    simp only [Option.map_eq_some_iff,Prod.mk.injEq] at h
    obtain ⟨_,-,-,rfl,-⟩ := h
    exact Machine.run_preserves
      (I := fun u : Ledger => (u x).allowance s.adapter.here spender ≤
        (l x).allowance s.adapter.here spender)
      (fun u c u' hu hx => (outsideCall_allowance_le hx x spender).trans hu) le_rfl b.calls

/-- A swap leaves the adapter without allowances again. -/
theorem Completed.closed {script script' : List Behaviour}
    (h : Completed s.adapter (scripted s) tokenIn tokenOut amountIn minOut recipient l script
      amountOut l' script')
    (hc : l.Closed s.adapter.here) : l'.Closed s.adapter.here := by
  obtain ⟨l₁,l₂,l₃,params,h₁,h₂,h₃,h₄⟩ := h.steps
  have hc₁ := (Ledger.transferFrom_ok h₁).2.2.2.closed hc
  have ha₂ := (Ledger.approve_frame h₂).2
  have ha₄ := (Ledger.approve_frame h₄).2
  intro x spender
  rw [ha₄]
  split
  · rfl
  · rename_i hk
    have hle := scripted_allowance_le h₃ x spender
    rw [ha₂,if_neg hk,hc₁ x spender] at hle
    omega

/-- One swap moved exactly its input out of the router, left the adapter as it was and
brought exactly the reported amount to the recipient. -/
structure Exact (s : System) (e : Swap) : Prop where
  spent : (e.after e.tokenIn).balanceOf s.router.here+e.amountIn =
    (e.before e.tokenIn).balanceOf s.router.here
  bps : (e.after s.adapter.bps).balanceOf s.adapter.here =
    (e.before s.adapter.bps).balanceOf s.adapter.here
  weth : (e.after s.adapter.weth).balanceOf s.adapter.here =
    (e.before s.adapter.weth).balanceOf s.adapter.here
  allowance : ∀ token, (e.after token).allowance s.adapter.here s.adapter.swapRouter02 = 0
  output : (e.after e.tokenOut).balanceOf e.recipient =
    (e.before e.tokenOut).balanceOf e.recipient+e.amountOut
  minimum : e.minimumAmountOut ≤ e.amountOut

/-- What every step of a trade keeps: the adapter allows nobody, and the swaps completed so
far were exact. -/
structure Clean (s : System) (w : World) : Prop where
  closed : w.tokens.Closed s.adapter.here
  exact_ : ∀ e ∈ w.others.2, Exact s e

abbrev adapterOf (s : System) (timestamp : ℕ) : TradeRouter.Adapter (List Behaviour × List Swap) :=
  asAdapter s (scripted s) timestamp

variable {w w' : World} {received tradeId burnBudget minBurn burned amount gross : ℕ}

theorem asAdapter_some {tokens : Ledger} {script script' : List Behaviour} {swaps swaps' : List Swap}
    (h : asAdapter s (scripted s) timestamp tokenIn tokenOut amountIn minOut recipient deadline
      (l,(script,swaps)) = some (received,(tokens,(script',swaps')))) :
    Completed s.adapter (scripted s) tokenIn tokenOut amountIn minOut recipient l script received
      tokens script' ∧
    swaps' = ⟨tokenIn,tokenOut,amountIn,minOut,recipient,received,l,tokens⟩::swaps := by
  unfold asAdapter at h
  split at h
  · cases h
  · rename_i out l₁ o hx
    simp only [Option.some.injEq,Prod.mk.injEq] at h
    obtain ⟨rfl,rfl,rfl,rfl⟩ := h
    exact ⟨swapExactInput_ok hx,rfl⟩

/-- A swap by the router keeps the trade clean, and a nonzero one is written down. -/
theorem swapped_clean (hw : Clean s w)
    (h : TradeRouter.Swapped s.router (adapterOf s timestamp) w w' tokenIn tokenOut amountIn minOut
      recipient deadline received) :
    Clean s w' ∧ (amountIn ≠ 0 → w'.others.2 ≠ []) ∧ (w.others.2 ≠ [] → w'.others.2 ≠ []) := by
  rcases h.swap with ⟨h0,-,rfl⟩ | hcall
  · exact ⟨hw,fun hne => absurd h0 hne,id⟩
  obtain ⟨l₁,l₂,h₁,h₂,h₃⟩ := hcall.called
  obtain ⟨hf₁,ha₁⟩ := Ledger.approve_frame h₁
  obtain ⟨hf₃,ha₃⟩ := Ledger.approve_frame h₃
  obtain ⟨hdone,hswaps⟩ := asAdapter_some h₂
  have hne : ¬s.adapter.here = s.router.here := fun he => s.distinct he.symm
  have hc₁ : l₁.Closed s.adapter.here := by
    intro x spender
    rw [ha₁,if_neg (fun hk => hne hk.2.1)]
    exact hw.closed x spender
  have hc₂ := hdone.closed hc₁
  refine ⟨⟨fun x spender => ?_,?_⟩,fun _ => by simp [hswaps],fun _ => by simp [hswaps]⟩
  · rw [ha₃,if_neg (fun hk => hne hk.2.1)]
    exact hc₂ x spender
  · intro e he
    rw [hswaps] at he
    rcases List.mem_cons.mp he with rfl | he
    · refine ⟨?_,hdone.bps,hdone.weth,fun token => hc₂ token _,hdone.output,hdone.minimum⟩
      have hspent := hcall.spent
      rw [(hf₃ tokenIn).1] at hspent
      rw [(hf₁ tokenIn).1]
      exact hspent
    · exact hw.exact_ e he

theorem delivered_clean (hw : Clean s w)
    (h : TradeRouter.Delivered s.router w w' recipient amount) : Clean s w' := by
  refine ⟨h.closed hw.closed,?_⟩
  rw [h.others]
  exact hw.exact_

theorem boughtBack_clean (hw : Clean s w)
    (h : TradeRouter.BoughtBack s.router (adapterOf s timestamp) w w' tradeId burnBudget minBurn
      deadline burned) : Clean s w' ∧ (w.others.2 ≠ [] → w'.others.2 ≠ []) := by
  obtain ⟨u,hs,ho,hb⟩ := h.swapped
  obtain ⟨hu,-,hne⟩ := swapped_clean hw hs
  rw [ho]
  refine ⟨⟨?_,by rw [ho]; exact hu.exact_⟩,hne⟩
  rcases hb with ⟨-,ht⟩ | ⟨ht,-⟩
  · rw [ht]
    exact hu.closed
  · intro x spender
    rw [(Ledger.burn_ok ht).allowance]
    exact hu.closed x spender

/-- A successful trade made swaps, all of them exact, and left the adapter closed. -/
theorem trade_clean {script : List Behaviour} {t : TradeRouter.Trade}
    (hc : w.tokens.Closed s.adapter.here) (h : trade s w script t = .ok w') :
    Clean s w' ∧ w'.others.2 ≠ [] := by
  have hstart (l : Ledger) (r : TradeRouter.Storage) (hl : l.Closed s.adapter.here) :
      Clean s { timestamp := w.timestamp, tokens := l, others := (script,[]), router := r } :=
    ⟨hl,fun _ he => by cases he⟩
  unfold trade at h
  cases t with
  | buy sender gross minUser minBurn recipient deadline =>
    simp only [TradeRouter.Trade.exec,bind_eq_ok,pure_eq_ok] at h
    obtain ⟨⟨⟨o,b⟩,u⟩,hu,rfl⟩ := h
    have hb := TradeRouter.buyExactWethForBps_ok hu
    obtain ⟨_,_,_,l₁,u₂,u₃,hsplit,hpull,hdel,hswap,⟨u₄,hbb,ht,ho⟩,-⟩ := hb.steps
    have hpulled := (Ledger.transferFrom_ok hpull).2.2.2.closed hc
    have h₂ := delivered_clean (hstart l₁ _ hpulled) hdel
    obtain ⟨h₃,hne₃,-⟩ := swapped_clean h₂ hswap
    obtain ⟨h₄,hne₄⟩ := boughtBack_clean h₃ hbb
    refine ⟨⟨?_,?_⟩,?_⟩
    · rw [ht]
      exact h₄.closed
    · rw [ho]
      exact h₄.exact_
    · rw [ho]
      exact hne₄ (hne₃ (hsplit.buy_user_ne_zero hb.gross_pos))
  | sell sender gross minGross minUser minBurn recipient deadline =>
    simp only [TradeRouter.Trade.exec,bind_eq_ok,pure_eq_ok] at h
    obtain ⟨⟨⟨p,o,b⟩,u⟩,hu,rfl⟩ := h
    have hb := TradeRouter.sellExactBpsForWeth_ok hu
    obtain ⟨_,_,l₁,u₂,u₃,u₄,-,hpull,hswap,hdel,hpay,⟨u₅,hbb,ht,ho⟩,-⟩ := hb.steps
    have hpulled := (Ledger.transferFrom_ok hpull).2.2.2.closed hc
    obtain ⟨h₂,hne₂,-⟩ := swapped_clean (hstart l₁ _ hpulled) hswap
    have h₄ := delivered_clean (delivered_clean h₂ hdel) hpay
    obtain ⟨h₅,hne₅⟩ := boughtBack_clean h₄ hbb
    refine ⟨⟨?_,?_⟩,?_⟩
    · rw [ht]
      exact h₅.closed
    · rw [ho]
      exact h₅.exact_
    · rw [ho]
      apply hne₅
      rw [hpay.others,hdel.others]
      exact hne₂ hb.gross_pos.ne'

/-- The adapter allows nobody between two transactions. -/
theorem exec_closed {tx : Tx} (hc : w.tokens.Closed s.adapter.here) (h : exec s w tx = .ok w') :
    w'.tokens.Closed s.adapter.here := by
  cases tx with
  | elapse seconds =>
    cases h
    exact hc
  | trade script t => exact (trade_clean hc h).1.closed
  | pause sender =>
    simp only [exec,bind_eq_ok,pure_eq_ok] at h
    obtain ⟨_,-,rfl⟩ := h
    exact hc
  | unpause sender =>
    simp only [exec,bind_eq_ok,pure_eq_ok] at h
    obtain ⟨_,-,rfl⟩ := h
    exact hc
  | ownership sender call =>
    simp only [exec,bind_eq_ok,pure_eq_ok] at h
    obtain ⟨_,-,rfl⟩ := h
    exact hc
  | token asset call =>
    simp only [exec,bind_eq_ok,revertIf_eq_ok,mapError_eq_ok,exists_const,pure_eq_ok] at h
    obtain ⟨hout,l,hl,rfl⟩ := h
    intro x spender
    have hsender : call.sender ≠ s.adapter.here := fun he => hout (by simp [he])
    have hle := Ledger.call_allowance_le hsender hl x spender
    rw [hc x spender] at hle
    exact Nat.le_zero.mp hle

theorem Reachable.closed (h : Reachable s w) : w.tokens.Closed s.adapter.here :=
  Machine.Reachable.invariant (I := fun u : World => u.tokens.Closed s.adapter.here)
    (fun _ hi => hi.adapter_closed) (fun _ _ _ hc hx => exec_closed hc hx) h

/-- Against every behaviour of the venue, a trade either reverts and changes nothing, or
every swap it made was exact. -/
theorem trade_reverted_or_exact (h : Reachable s w) (script : List Behaviour)
    (t : TradeRouter.Trade) :
    (∃ e, trade s w script t = .error e ∧ Machine.commit (exec s) w (.trade script t) = w) ∨
    ∃ w', trade s w script t = .ok w' ∧ w'.others.2 ≠ [] ∧ ∀ e ∈ w'.others.2, Exact s e := by
  cases ht : trade s w script t with
  | error e => exact Or.inl ⟨e,rfl,Machine.commit_error ht⟩
  | ok w' =>
    obtain ⟨hclean,hne⟩ := trade_clean h.closed ht
    exact Or.inr ⟨w',rfl,hne,hclean.exact_⟩

/-- The router and the adapter for runs on fixed inputs: WETH is token `40`, BPS is `60`,
the venue is account `64`. -/
def sample : System where
  router := TradeRouter.sample
  adapter := ⟨61,300,60,40,64,3000,by decide,TradeRouter.sample.pair_distinct,by decide,by decide,
    by decide⟩
  adapter_here := rfl
  router_here := rfl
  bps := rfl
  weth := rfl
  distinct := by decide

/-- A venue that takes all it is allowed and sells at ten to one. -/
def sampleScript : List Behaviour :=
  [⟨[(40,.transferFrom 64 61 64 9700),(60,.transfer 64 5 970)],some 970⟩,
    ⟨[(40,.transferFrom 64 61 64 100),(60,.transfer 64 300 10)],some 10⟩]

/-- The trader `1` holds WETH that the router may pull, the venue holds BPS. -/
def sampleStart : World :=
  Machine.run (exec sample) ⟨0,fun _ => Token.empty,([],[]),.deployed 9⟩
    [.token 40 (.mint 4 1 10000),.token 40 (.approve 1 300 10000),.token 60 (.mint 4 64 5000)]

theorem sampleStart_reachable : Reachable sample sampleStart :=
  (Machine.Reachable.of_init ⟨⟨9,rfl⟩,fun _ _ => rfl⟩).run _

theorem sample_buy_exact : ∃ w', trade sample sampleStart sampleScript (.buy 1 10000 900 1 5 0) =
    .ok w' ∧ w'.others.2 ≠ [] ∧ ∀ e ∈ w'.others.2, Exact sample e := by
  have hok : (trade sample sampleStart sampleScript (.buy 1 10000 900 1 5 0)).isOk = true := by
    decide +kernel
  rcases trade_reverted_or_exact sampleStart_reachable sampleScript (.buy 1 10000 900 1 5 0) with
    ⟨e,he,-⟩ | h
  · rw [he] at hok
    cases hok
  · exact h

end UniswapAdapter
end BpsProtocol
