import BpsProtocol.TradeRouter

/-! What each step of a trade did, once it succeeded.
The trades are chains of these steps; nothing here depends on the adapter. -/
namespace BpsProtocol
namespace TradeRouter

open Checked Mapping Erc20

variable {γ : Type} {d : Deployment} {swapExactInput : Adapter γ} {w w' : World γ}
  {token trader sender recipient tokenIn tokenOut : Address}
  {amount amountIn minOut deadline received tradeId burnBudget minBurnOut burned gross : ℕ}
  {tokens tokens' : Ledger}

theorem pullExact_ok (h : pullExact d tokens token trader amount = .ok tokens') :
    tokens.transferFrom token d.here trader d.here amount = .ok tokens' ∧
    (tokens' token).balanceOf d.here = (tokens token).balanceOf d.here+amount := by
  simp only [pullExact,bind_eq_ok,revertIf_eq_ok,mapError_eq_ok,sub_eq_ok,exists_const,
    pure_eq_ok] at h
  obtain ⟨l,hl,_,⟨hle,rfl⟩,hreceived,rfl⟩ := h
  exact ⟨hl,by omega⟩

theorem deliverWeth_ok (h : deliverWeth d tokens recipient amount = .ok tokens') :
    tokens.transfer d.weth d.here recipient amount = .ok tokens' ∧
    (tokens' d.weth).balanceOf recipient = (tokens d.weth).balanceOf recipient+amount := by
  simp only [deliverWeth,bind_eq_ok,revertIf_eq_ok,mapError_eq_ok,sub_eq_ok,exists_const,
    pure_eq_ok] at h
  obtain ⟨l,hl,_,⟨hle,rfl⟩,hreceived,rfl⟩ := h
  exact ⟨hl,by omega⟩

/-- A WETH delivery, which moves nothing where there is nothing to deliver. -/
structure Delivered (d : Deployment) (w w' : World γ) (recipient : Address) (amount : ℕ) : Prop where
  timestamp : w'.timestamp = w.timestamp
  others : w'.others = w.others
  tokens : (amount = 0 ∧ w'.tokens = w.tokens) ∨
    w.tokens.transfer d.weth d.here recipient amount = .ok w'.tokens
  received : (w'.tokens d.weth).balanceOf recipient = (w.tokens d.weth).balanceOf recipient+amount

theorem Delivered.closed {a : Address} (hc : w.tokens.Closed a)
    (h : Delivered d w w' recipient amount) : w'.tokens.Closed a := by
  rcases h.tokens with ⟨-,ht⟩ | ht
  · rw [ht]
    exact hc
  · exact (Ledger.transfer_ok ht).2.2.closed hc

/-- The storage with some more events. -/
def Storage.logged (r : Storage) (events : List Event) : Storage :=
  { r with events := events ++ r.events }

theorem deliverStockBudget_ok (h : deliverStockBudget d w tradeId amount = .ok w') :
    Delivered d w w' d.stockBudgetRecipient amount ∧
    w'.router = w.router.logged
      (if amount = 0 then [] else [.stockBudgetDelivered tradeId d.stockBudgetRecipient amount]) := by
  unfold deliverStockBudget at h
  split at h
  · rename_i h0
    cases h
    exact ⟨⟨rfl,rfl,Or.inl ⟨h0,rfl⟩,by simp [h0]⟩,by simp [h0,Storage.logged]⟩
  · rename_i h0
    simp only [bind_eq_ok,pure_eq_ok] at h
    obtain ⟨l,hl,rfl⟩ := h
    obtain ⟨ht,hb⟩ := deliverWeth_ok hl
    exact ⟨⟨rfl,rfl,Or.inr ht,hb⟩,by simp [h0,Storage.logged,World.emit]⟩

theorem deliverUserWeth_ok (h : deliverUserWeth d w recipient amount = .ok w') :
    Delivered d w w' recipient amount ∧ w'.router = w.router := by
  unfold deliverUserWeth at h
  split at h
  · rename_i h0
    cases h
    exact ⟨⟨rfl,rfl,Or.inl ⟨h0,rfl⟩,by simp [h0]⟩,rfl⟩
  · simp only [bind_eq_ok,pure_eq_ok] at h
    obtain ⟨l,hl,rfl⟩ := h
    obtain ⟨ht,hb⟩ := deliverWeth_ok hl
    exact ⟨⟨rfl,rfl,Or.inr ht,hb⟩,rfl⟩

/-- The adapter was called between an exact approval and its clearing, took exactly the
input from the router and brought the reported output to the recipient. -/
structure Called (d : Deployment) (swapExactInput : Adapter γ) (w w' : World γ)
    (tokenIn tokenOut : Address) (amountIn minOut : ℕ) (recipient : Address)
    (deadline received : ℕ) : Prop where
  called : ∃ approved called,
    w.tokens.approve tokenIn d.here d.swapAdapter amountIn = .ok approved ∧
    swapExactInput tokenIn tokenOut amountIn minOut recipient deadline (approved,w.others) =
      some (received,(called,w'.others)) ∧
    called.approve tokenIn d.here d.swapAdapter 0 = .ok w'.tokens
  spent : (w'.tokens tokenIn).balanceOf d.here+amountIn = (w.tokens tokenIn).balanceOf d.here
  output : (w'.tokens tokenOut).balanceOf recipient =
    (w.tokens tokenOut).balanceOf recipient+received

/-- One adapter swap; a zero input calls nobody. -/
structure Swapped (d : Deployment) (swapExactInput : Adapter γ) (w w' : World γ)
    (tokenIn tokenOut : Address) (amountIn minOut : ℕ) (recipient : Address)
    (deadline received : ℕ) : Prop where
  timestamp : w'.timestamp = w.timestamp
  router : w'.router = w.router
  minimum : minOut ≤ received
  swap : (amountIn = 0 ∧ received = 0 ∧ w' = w) ∨
    Called d swapExactInput w w' tokenIn tokenOut amountIn minOut recipient deadline received

/-- The recipient of a swap gains at least the minimum. -/
theorem Swapped.gain (h : Swapped d swapExactInput w w' tokenIn tokenOut amountIn minOut recipient
    deadline received) : (w.tokens tokenOut).balanceOf recipient+minOut ≤
      (w'.tokens tokenOut).balanceOf recipient := by
  have hmin := h.minimum
  rcases h.swap with ⟨-,h0,rfl⟩ | hcall
  · omega
  · have hout := hcall.output
    omega

theorem adapterSwap_ok
    (h : adapterSwap d swapExactInput w tokenIn tokenOut amountIn minOut recipient deadline =
      .ok (received,w')) :
    Swapped d swapExactInput w w' tokenIn tokenOut amountIn minOut recipient deadline received := by
  unfold adapterSwap at h
  split at h
  · rename_i h0
    simp only [bind_eq_ok,revertIf_eq_ok,exists_const,pure_eq_ok] at h
    obtain ⟨hmin,he⟩ := h
    obtain ⟨rfl,rfl⟩ := Prod.mk.inj he
    exact ⟨rfl,rfl,(not_not.mp hmin).le,Or.inl ⟨h0,rfl,rfl⟩⟩
  · simp only [bind_eq_ok,revertIf_eq_ok,mapError_eq_ok,sub_eq_ok,orRevert_eq_ok,exists_const,
      pure_eq_ok] at h
    obtain ⟨l,hl,⟨r,l',o⟩,hcall,l'',hl'',_,⟨hle,rfl⟩,hspent,_,⟨hle',rfl⟩,hreported,hmin,he⟩ := h
    obtain ⟨rfl,rfl⟩ := Prod.mk.inj he
    have hr := not_not.mp hreported
    refine ⟨rfl,rfl,by omega,Or.inr ⟨⟨l,l',hl,?_,hl''⟩,by dsimp only; omega,by dsimp only; omega⟩⟩
    rw [hr]
    exact hcall

theorem burnExact_ok (h : burnExact d tokens burned = .ok tokens') :
    tokens.burn d.bpsToken d.here burned = .ok tokens' ∧
    (tokens' d.bpsToken).totalSupply+burned = (tokens d.bpsToken).totalSupply := by
  simp only [burnExact,bind_eq_ok,revertIf_eq_ok,mapError_eq_ok,sub_eq_ok,exists_const,
    pure_eq_ok] at h
  obtain ⟨l,hl,_,⟨-,rfl⟩,_,⟨hle,rfl⟩,-,hsupply,rfl⟩ := h
  exact ⟨hl,by omega⟩

/-- A repurchase and the burn of all of it; an empty one burns nothing. -/
structure BoughtBack (d : Deployment) (swapExactInput : Adapter γ) (w w' : World γ)
    (tradeId burnBudget minBurnOut deadline burned : ℕ) : Prop where
  swapped : ∃ u : World γ,
    Swapped d swapExactInput w u d.weth d.bpsToken burnBudget minBurnOut d.here deadline burned ∧
    w'.others = u.others ∧
    ((burned = 0 ∧ w'.tokens = u.tokens) ∨
      (u.tokens.burn d.bpsToken d.here burned = .ok w'.tokens ∧
        (w'.tokens d.bpsToken).totalSupply+burned = (u.tokens d.bpsToken).totalSupply))
  timestamp : w'.timestamp = w.timestamp
  router : w'.router = w.router.logged
    (if burned = 0 then [] else [.bpsRepurchasedAndBurned tradeId burnBudget burned])

theorem buybackAndBurn_ok
    (h : buybackAndBurn d swapExactInput w tradeId burnBudget minBurnOut deadline =
      .ok (burned,w')) :
    BoughtBack d swapExactInput w w' tradeId burnBudget minBurnOut deadline burned := by
  simp only [buybackAndBurn,bind_eq_ok] at h
  obtain ⟨⟨b,u⟩,hu,h⟩ := h
  have hs := adapterSwap_ok hu
  split at h
  · rename_i h0
    simp only at h0
    simp only [pure_eq_ok] at h
    obtain ⟨rfl,rfl⟩ := Prod.mk.inj h
    subst h0
    exact ⟨⟨u,hs,rfl,Or.inl ⟨rfl,rfl⟩⟩,hs.timestamp,by simp [hs.router,Storage.logged]⟩
  · rename_i h0
    simp only [bind_eq_ok,pure_eq_ok] at h
    obtain ⟨l,hl,he⟩ := h
    obtain ⟨rfl,rfl⟩ := Prod.mk.inj he
    exact ⟨⟨u,hs,rfl,Or.inr (burnExact_ok hl)⟩,hs.timestamp,
      by simp [h0,hs.router,Storage.logged,World.emit]⟩

/-- The floors of the two allocations and the remainder, for one side in WETH. -/
structure Split (wethSide stockBps burnBps stockBudget burnBudget userAmount : ℕ) : Prop where
  stockBudget_eq : stockBudget = wethSide*stockBps/bpsDenominator
  burnBudget_eq : burnBudget = wethSide*burnBps/bpsDenominator
  total : stockBudget+burnBudget+userAmount = wethSide

/-- A buy always leaves the user something to swap. -/
theorem Split.buy_user_ne_zero {stockBudget userBudget : ℕ} (hpos : 0 < gross)
    (h : Split gross buyStockBps buyBurnBps stockBudget burnBudget userBudget) :
    userBudget ≠ 0 := by
  have h1 := h.stockBudget_eq
  have h2 := h.burnBudget_eq
  have h3 := h.total
  simp only [buyStockBps,buyBurnBps,bpsDenominator] at h1 h2
  omega

/-- The chain of steps of a successful buy. -/
structure Bought (d : Deployment) (swapExactInput : Adapter γ) (w w' : World γ)
    (sender : Address) (gross minUser minBurn : ℕ) (recipient : Address)
    (deadline userOutput burned : ℕ) : Prop where
  unpaused : w.router.paused = false
  gross_pos : 0 < gross
  recipient_ne_zero : recipient ≠ 0
  recipient_ne : recipient ∉ [d.here,d.bpsToken,d.weth,d.swapAdapter]
  wethResidue : (w'.tokens d.weth).balanceOf d.here = (w.tokens d.weth).balanceOf d.here
  bpsResidue : (w'.tokens d.bpsToken).balanceOf d.here = (w.tokens d.bpsToken).balanceOf d.here
  steps : ∃ (stockBudget burnBudget userBudget : ℕ) (pulled : Ledger) (delivered swapped : World γ),
    Split gross buyStockBps buyBurnBps stockBudget burnBudget userBudget ∧
    w.tokens.transferFrom d.weth d.here sender d.here gross = .ok pulled ∧
    Delivered d { w with tokens := pulled } delivered d.stockBudgetRecipient stockBudget ∧
    Swapped d swapExactInput delivered swapped d.weth d.bpsToken userBudget minUser recipient
      deadline userOutput ∧
    (∃ u, BoughtBack d swapExactInput swapped u (w.router.tradeCount+1) burnBudget minBurn deadline
      burned ∧ w'.tokens = u.tokens ∧ w'.others = u.others) ∧
    w'.router = { w.router with
      tradeCount := w.router.tradeCount+1
      totalBuys := w.router.totalBuys+1
      totalGrossWethInFromBuys := w.router.totalGrossWethInFromBuys+gross
      totalStockBudgetDelivered := w.router.totalStockBudgetDelivered+stockBudget
      totalBurnBudgetConsumed := w.router.totalBurnBudgetConsumed+burnBudget
      totalBpsBurned := w.router.totalBpsBurned+burned
      events := .officialBuy (w.router.tradeCount+1) sender recipient gross stockBudget burnBudget
          userBudget userOutput burned d.swapAdapter d.stockBudgetRecipient::
        ((if burned = 0 then []
          else [.bpsRepurchasedAndBurned (w.router.tradeCount+1) burnBudget burned]) ++
        ((if stockBudget = 0 then []
          else [.stockBudgetDelivered (w.router.tradeCount+1) d.stockBudgetRecipient stockBudget]) ++
        w.router.events)) }

theorem buyExactWethForBps_ok {minUser minBurn userOutput : ℕ}
    (h : buyExactWethForBps d swapExactInput w sender gross minUser minBurn recipient deadline =
      .ok ((userOutput,burned),w')) :
    Bought d swapExactInput w w' sender gross minUser minBurn recipient deadline userOutput
      burned := by
  simp only [buyExactWethForBps,validateRecipient,checkDeadline,assertNoResidue,bind_eq_ok,
    revertIf_eq_ok,sub_eq_ok,add_eq_ok,mulDiv_eq_ok,exists_const,pure_eq_ok,and_assoc,
    exists_and_left,exists_eq_left'] at h
  obtain ⟨hpaused,hgross,hzero,hrec,-,l,hl,-,-,hle,hle',-,u₁,hu₁,⟨o,u₂⟩,hu₂,⟨b,u₃⟩,hu₃,hweth,hbps,
    -,-,-,-,-,he⟩ := h
  obtain ⟨hout,rfl⟩ := Prod.mk.inj he
  obtain ⟨rfl,rfl⟩ := Prod.mk.inj hout
  obtain ⟨hd,hdr⟩ := deliverStockBudget_ok hu₁
  have hs := adapterSwap_ok hu₂
  have hb := buybackAndBurn_ok hu₃
  have hrouter := hb.router
  rw [hs.router,hdr] at hrouter
  refine ⟨by simpa using hpaused,Nat.pos_of_ne_zero hgross,hzero,hrec,not_not.mp hweth,not_not.mp hbps,
    _,_,_,l,u₁,u₂,⟨rfl,rfl,by omega⟩,(pullExact_ok hl).1,?_,hs,⟨u₃,hb,rfl,rfl⟩,?_⟩
  · exact ⟨hd.timestamp,hd.others,hd.tokens,hd.received⟩
  · simp only [World.emit,hrouter,Storage.logged]

/-- The chain of steps of a successful sell. -/
structure Sold (d : Deployment) (swapExactInput : Adapter γ) (w w' : World γ)
    (sender : Address) (gross minGross minUser minBurn : ℕ) (recipient : Address)
    (deadline proceeds userOutput burned : ℕ) : Prop where
  unpaused : w.router.paused = false
  gross_pos : 0 < gross
  recipient_ne_zero : recipient ≠ 0
  recipient_ne : recipient ∉ [d.here,d.bpsToken,d.weth,d.swapAdapter]
  minimum : minUser ≤ userOutput
  wethResidue : (w'.tokens d.weth).balanceOf d.here = (w.tokens d.weth).balanceOf d.here
  bpsResidue : (w'.tokens d.bpsToken).balanceOf d.here = (w.tokens d.bpsToken).balanceOf d.here
  steps : ∃ (stockBudget burnBudget : ℕ) (pulled : Ledger) (swapped delivered paid : World γ),
    Split proceeds sellStockBps sellBurnBps stockBudget burnBudget userOutput ∧
    w.tokens.transferFrom d.bpsToken d.here sender d.here gross = .ok pulled ∧
    Swapped d swapExactInput
      { w with tokens := pulled, router := { w.router with tradeCount := w.router.tradeCount+1 } }
      swapped d.bpsToken d.weth gross minGross d.here deadline proceeds ∧
    Delivered d swapped delivered d.stockBudgetRecipient stockBudget ∧
    Delivered d delivered paid recipient userOutput ∧
    (∃ u, BoughtBack d swapExactInput paid u (w.router.tradeCount+1) burnBudget minBurn deadline
      burned ∧ w'.tokens = u.tokens ∧ w'.others = u.others) ∧
    w'.router = { w.router with
      tradeCount := w.router.tradeCount+1
      totalSells := w.router.totalSells+1
      totalGrossBpsInFromSells := w.router.totalGrossBpsInFromSells+gross
      totalStockBudgetDelivered := w.router.totalStockBudgetDelivered+stockBudget
      totalBurnBudgetConsumed := w.router.totalBurnBudgetConsumed+burnBudget
      totalBpsBurned := w.router.totalBpsBurned+burned
      events := .officialSell (w.router.tradeCount+1) sender recipient gross proceeds stockBudget
          burnBudget userOutput burned d.swapAdapter d.stockBudgetRecipient::
        ((if burned = 0 then []
          else [.bpsRepurchasedAndBurned (w.router.tradeCount+1) burnBudget burned]) ++
        ((if stockBudget = 0 then []
          else [.stockBudgetDelivered (w.router.tradeCount+1) d.stockBudgetRecipient stockBudget]) ++
        w.router.events)) }

theorem sellExactBpsForWeth_ok {minGross minUser minBurn proceeds userOutput : ℕ}
    (h : sellExactBpsForWeth d swapExactInput w sender gross minGross minUser minBurn recipient
      deadline = .ok ((proceeds,userOutput,burned),w')) :
    Sold d swapExactInput w w' sender gross minGross minUser minBurn recipient deadline proceeds
      userOutput burned := by
  simp only [sellExactBpsForWeth,validateRecipient,checkDeadline,assertNoResidue,bind_eq_ok,
    revertIf_eq_ok,sub_eq_ok,add_eq_ok,mulDiv_eq_ok,exists_const,pure_eq_ok,and_assoc,
    exists_and_left,exists_eq_left'] at h
  obtain ⟨hpaused,hgross,hzero,hrec,-,l,hl,-,⟨o,u₁⟩,hu₁,-,-,hle,hle',hmin,u₂,hu₂,u₃,hu₃,⟨b,u₄⟩,hu₄,
    hweth,hbps,-,-,-,-,-,he⟩ := h
  obtain ⟨hout,rfl⟩ := Prod.mk.inj he
  obtain ⟨rfl,huser⟩ := Prod.mk.inj hout
  obtain ⟨rfl,rfl⟩ := Prod.mk.inj huser
  have hs := adapterSwap_ok hu₁
  obtain ⟨hd,hdr⟩ := deliverStockBudget_ok hu₂
  obtain ⟨hp,hpr⟩ := deliverUserWeth_ok hu₃
  have hb := buybackAndBurn_ok hu₄
  have hrouter := hb.router
  rw [hpr,hdr,hs.router] at hrouter
  refine ⟨by simpa using hpaused,Nat.pos_of_ne_zero hgross,hzero,hrec,by simpa using hmin,
    not_not.mp hweth,not_not.mp hbps,_,_,l,u₁,u₂,u₃,⟨rfl,rfl,by dsimp only at hle hle' ⊢; omega⟩,
    (pullExact_ok hl).1,hs,hd,hp,⟨u₄,hb,rfl,rfl⟩,?_⟩
  simp only [World.emit,hrouter,Storage.logged]

/-- The owner changes who owns the router and whether it is paused. -/
theorem ownerCall_kept {r r' : Storage} {call : Ownable.Call}
    (h : changeOwnership r sender call = .ok r') : ∃ o p, r' = { r with ownership := o, paused := p } := by
  cases call <;> simp only [changeOwnership,bind_eq_ok,mapError_eq_ok,pure_eq_ok] at h
  · obtain ⟨o,-,rfl⟩ := h
    exact ⟨o,_,rfl⟩
  · obtain ⟨o,-,rfl⟩ := h
    exact ⟨o,_,rfl⟩
  · cases h

theorem pause_kept {r r' : Storage} (h : pause r sender = .ok r') :
    ∃ o p, r' = { r with ownership := o, paused := p } := by
  simp only [pause,bind_eq_ok,mapError_eq_ok,revertIf_eq_ok,exists_const,pure_eq_ok] at h
  obtain ⟨_,-,-,rfl⟩ := h
  exact ⟨_,_,rfl⟩

theorem unpause_kept {r r' : Storage} (h : unpause r sender = .ok r') :
    ∃ o p, r' = { r with ownership := o, paused := p } := by
  simp only [unpause,bind_eq_ok,mapError_eq_ok,revertIf_eq_ok,exists_const,pure_eq_ok] at h
  obtain ⟨_,-,-,rfl⟩ := h
  exact ⟨_,_,rfl⟩

end TradeRouter
end BpsProtocol
