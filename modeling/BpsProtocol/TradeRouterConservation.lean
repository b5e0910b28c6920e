import BpsProtocol.TradeRouterCounters

/-! Conservation of the router's trades against any adapter of its kind.
Whatever the adapter does with its own tokens and with its allowance, it takes nothing
from the other accounts.  The balance checks of the router then leave one outcome for the
trader, the stock budget recipient, the recipient, the router and the supply. -/
namespace BpsProtocol
namespace TradeRouter

open Checked Mapping Erc20

variable {d : Deployment} {l l' : Ledger}

/-- What the adapter cannot do to anybody but the router and itself. -/
structure Contained (d : Deployment) (l l' : Ledger) : Prop where
  bystander : ∀ a, a ≠ d.here → a ≠ d.swapAdapter → Ledger.Bystander a l l'
  stock : ∀ x, (l' x).balanceOf d.stockBudgetRecipient = (l x).balanceOf d.stockBudgetRecipient
  supply : ∀ x, (l' x).totalSupply = (l x).totalSupply
  allowance : ∀ x s, (l' x).allowance d.here s ≤ (l x).allowance d.here s

theorem Contained.refl (d : Deployment) (l : Ledger) : Contained d l l :=
  ⟨fun a _ _ => .refl a l,fun _ => rfl,fun _ => rfl,fun _ _ => le_rfl⟩

theorem Contained.trans {l'' : Ledger} (h : Contained d l l') (h' : Contained d l' l'') :
    Contained d l l'' :=
  ⟨fun a ha hb => (h.bystander a ha hb).trans (h'.bystander a ha hb),
    fun x => (h'.stock x).trans (h.stock x),fun x => (h'.supply x).trans (h.supply x),
    fun x s => (h'.allowance x s).trans (h.allowance x s)⟩

theorem stockRecipient_ne (d : Deployment) :
    d.stockBudgetRecipient ≠ d.here ∧ d.stockBudgetRecipient ≠ d.swapAdapter := by
  have h := d.recipient_distinct
  simp only [List.mem_cons,not_or] at h
  exact ⟨h.1,h.2.2.2.1⟩

/-- A payment by the router or the adapter to anybody but the stock budget recipient. -/
theorem Contained.of_paid {asset source target : Address} {value : ℕ}
    (h : l.Paid l' asset source target value) (hs : source = d.here ∨ source = d.swapAdapter)
    (ht : target ≠ d.stockBudgetRecipient) : Contained d l l' := by
  obtain ⟨hhere,hadapter⟩ := stockRecipient_ne d
  refine ⟨fun a ha hb => .of_paid h ?_,fun x => ?_,fun x => ?_,fun x s => ?_⟩
  · rcases hs with rfl | rfl
    · exact ha
    · exact hb
  · have hb := h.balance x d.stockBudgetRecipient
    have hsource : d.stockBudgetRecipient ≠ source := by
      rcases hs with rfl | rfl
      · exact hhere
      · exact hadapter
    simpa [hsource,ht.symm] using hb
  · by_cases hx : x = asset
    · subst hx
      exact h.moved.totalSupply
    · rw [h.others x hx]
  · by_cases hx : x = asset
    · subst hx
      exact h.allowance_le _ _
    · rw [h.others x hx]

theorem Contained.of_approve {asset owner spender : Address} {value : ℕ} (ho : owner ≠ d.here)
    (h : l.approve asset owner spender value = .ok l') : Contained d l l' := by
  obtain ⟨hf,ha⟩ := Ledger.approve_frame h
  refine ⟨fun a _ _ => .of_approve h,fun x => by rw [(hf x).1],fun x => (hf x).2.1,fun x s => ?_⟩
  rw [ha,if_neg (fun hk => ho hk.2.1.symm)]

theorem AdapterCall.exec_contained {c : AdapterCall} (hne : d.swapAdapter ≠ d.here)
    (h : c.exec d l = .ok l') : Contained d l l' := by
  cases c with
  | transfer asset target value =>
    simp only [exec,bind_eq_ok,revertIf_eq_ok,mapError_eq_ok,exists_const] at h
    exact .of_paid (Ledger.transfer_ok h.2).2.2 (Or.inr rfl) h.1
  | pull asset target value =>
    simp only [exec,bind_eq_ok,revertIf_eq_ok,mapError_eq_ok,exists_const] at h
    exact .of_paid (Ledger.transferFrom_ok h.2).2.2.2 (Or.inl rfl) h.1
  | approve asset spender value =>
    simp only [exec,mapError_eq_ok] at h
    exact .of_approve hne h

/-- A whole call of the adapter. -/
theorem scripted_contained {tokenIn tokenOut recipient : Address} {amountIn minOut deadline r : ℕ}
    {script script' : List Behaviour} (hne : d.swapAdapter ≠ d.here)
    (h : scripted d tokenIn tokenOut amountIn minOut recipient deadline (l,script) =
      some (r,(l',script'))) : Contained d l l' := by
  unfold scripted at h
  split at h
  · cases h
  · rename_i b rest _
    simp only [Option.map_eq_some_iff,Prod.mk.injEq] at h
    obtain ⟨_,-,-,rfl,-⟩ := h
    exact Machine.run_preserves (I := fun u => Contained d l u)
      (fun u c u' hu hx => hu.trans (AdapterCall.exec_contained hne hx)) (.refl d l) b.calls

variable {w w' : World (List Behaviour)} {sender recipient tokenIn tokenOut : Address}
  {amount amountIn minOut deadline received tradeId burnBudget minBurn burned gross : ℕ}

/-- A swap is contained, and the router ends without allowances again. -/
theorem Swapped.contained (hne : d.swapAdapter ≠ d.here) (hc : w.tokens.Closed d.here)
    (h : Swapped d (scripted d) w w' tokenIn tokenOut amountIn minOut recipient deadline received) :
    Contained d w.tokens w'.tokens ∧ w'.tokens.Closed d.here := by
  rcases h.swap with ⟨-,-,rfl⟩ | hcall
  · exact ⟨.refl d _,hc⟩
  obtain ⟨l₁,l₂,h₁,h₂,h₃⟩ := hcall.called
  obtain ⟨hf₁,ha₁⟩ := Ledger.approve_frame h₁
  obtain ⟨hf₃,ha₃⟩ := Ledger.approve_frame h₃
  have hcontained := scripted_contained hne h₂
  have hclosed : w'.tokens.Closed d.here := by
    intro x s
    rw [ha₃]
    split
    · rfl
    · rename_i hk
      have hle := hcontained.allowance x s
      have h0 := hc x s
      have ha := ha₁ x d.here s
      rw [if_neg hk] at ha
      omega
  refine ⟨⟨fun a ha hb => ?_,fun x => ?_,fun x => ?_,fun x s => ?_⟩,hclosed⟩
  · exact ((Ledger.Bystander.of_approve h₁).trans (hcontained.bystander a ha hb)).trans
      (.of_approve h₃)
  · rw [(hf₃ x).1,hcontained.stock x,(hf₁ x).1]
  · rw [(hf₃ x).2.1,hcontained.supply x,(hf₁ x).2.1]
  · rw [hclosed x s]
    exact Nat.zero_le _

/-- A repurchase leaves the bystanders alone and takes exactly the burned amount off the
supply. -/
structure RepurchaseContained (d : Deployment) (l l' : Ledger) (burned : ℕ) : Prop where
  bystander : ∀ a, a ≠ d.here → a ≠ d.swapAdapter → a ≠ 0 → Ledger.Bystander a l l'
  stock : ∀ x, (l' x).balanceOf d.stockBudgetRecipient = (l x).balanceOf d.stockBudgetRecipient
  supply : (l' d.bpsToken).totalSupply+burned = (l d.bpsToken).totalSupply
  closed : l'.Closed d.here

theorem BoughtBack.contained (hne : d.swapAdapter ≠ d.here) (hc : w.tokens.Closed d.here)
    (h : BoughtBack d (scripted d) w w' tradeId burnBudget minBurn deadline burned) :
    RepurchaseContained d w.tokens w'.tokens burned := by
  obtain ⟨u,hs,-,hburn⟩ := h.swapped
  obtain ⟨hcont,hclosed⟩ := hs.contained hne hc
  rcases hburn with ⟨h0,ht⟩ | ⟨hb,hsupply⟩
  · rw [ht]
    refine ⟨fun a ha hb _ => hcont.bystander a ha hb,hcont.stock,?_,hclosed⟩
    rw [h0,hcont.supply]
    rfl
  · have hb := Ledger.burn_ok hb
    have hstock := (stockRecipient_ne d).1
    refine ⟨fun a ha hA h0 => (hcont.bystander a ha hA).trans (.of_burned hb ha h0),fun x => ?_,
      by rw [hsupply,hcont.supply],fun x s => by rw [hb.allowance]; exact hclosed x s⟩
    have hbal := hb.balance x d.stockBudgetRecipient
    simp only [hstock,and_false,if_false,Nat.add_zero] at hbal
    rw [hbal,hcont.stock]

/-- A delivery of WETH by the router, seen by everybody. -/
theorem Delivered.bystander {a : Address} (ha : a ≠ d.here)
    (h : Delivered d w w' recipient amount) : Ledger.Bystander a w.tokens w'.tokens := by
  rcases h.tokens with ⟨-,ht⟩ | ht
  · rw [ht]
    exact .refl a _
  · exact .of_paid (Ledger.transfer_ok ht).2.2 ha

theorem Delivered.balance_other {a : Address} (ha : a ≠ d.here) (ht : a ≠ recipient)
    (h : Delivered d w w' recipient amount) (x : Address) :
    (w'.tokens x).balanceOf a = (w.tokens x).balanceOf a := by
  rcases h.tokens with ⟨-,he⟩ | he
  · rw [he]
  · have hb := (Ledger.transfer_ok he).2.2.balance x a
    simpa [ha,ht] using hb

theorem Delivered.supply (h : Delivered d w w' recipient amount) (x : Address) :
    (w'.tokens x).totalSupply = (w.tokens x).totalSupply := by
  rcases h.tokens with ⟨-,he⟩ | he
  · rw [he]
  · have hp := (Ledger.transfer_ok he).2.2
    by_cases hx : x = d.weth
    · rw [hx]
      exact hp.moved.totalSupply
    · rw [hp.others x hx]

/-- The pull of the gross input, seen by the trader and by everybody else. -/
structure Pulled (d : Deployment) (l l' : Ledger) (token trader : Address) (gross : ℕ) : Prop where
  trader_ne_zero : trader ≠ 0
  trader_ne_here : trader ≠ d.here
  sent : (l' token).sent trader = (l token).sent trader+gross
  balance : (l' token).balanceOf trader+gross = (l token).balanceOf trader
  received : (l' token).received trader = (l token).received trader
  bystander : ∀ a, a ≠ trader → Ledger.Bystander a l l'
  others : ∀ x a, a ≠ trader → a ≠ d.here → (l' x).balanceOf a = (l x).balanceOf a
  supply : ∀ x, (l' x).totalSupply = (l x).totalSupply
  closed : l'.Closed d.here

theorem pulled_of_transferFrom {token trader : Address} (hc : l.Closed d.here) (hpos : 0 < gross)
    (h : l.transferFrom token d.here trader d.here gross = .ok l') :
    Pulled d l l' token trader gross := by
  obtain ⟨h0,hallow,-,hp⟩ := Ledger.transferFrom_ok h
  -- a closed account cannot be pulled from
  have hne : trader ≠ d.here := by
    rintro rfl
    have := hc token d.here
    omega
  refine ⟨h0,hne,?_,?_,?_,fun a ha => .of_paid hp ha,fun x a ha hb => ?_,fun x => ?_,hp.closed hc⟩
  · rw [hp.moved.sent_eq,if_pos rfl]
  · have hb := hp.moved.balances trader
    simpa [hne] using hb
  · rw [hp.moved.received_eq,if_neg hne,Nat.add_zero]
  · have hbal := hp.balance x a
    simpa [ha,hb] using hbal
  · by_cases hx : x = token
    · rw [hx]
      exact hp.moved.totalSupply
    · rw [hp.others x hx]

/-- What a successful trade leaves behind, for either direction. -/
structure Conserves (d : Deployment) (w w' : World (List Behaviour)) (trader recipient : Address)
    (tokenIn tokenOut : Address) (gross minimum stockBudget bpsBurned : ℕ) : Prop where
  trader_paid : (w'.tokens tokenIn).sent trader = (w.tokens tokenIn).sent trader+gross
  trader_balance : (w'.tokens tokenIn).balanceOf trader+gross+(w.tokens tokenIn).received trader =
    (w.tokens tokenIn).balanceOf trader+(w'.tokens tokenIn).received trader
  stock_received : (w'.tokens d.weth).balanceOf d.stockBudgetRecipient =
    (w.tokens d.weth).balanceOf d.stockBudgetRecipient+stockBudget
  recipient_received : (w.tokens tokenOut).balanceOf recipient+minimum ≤
    (w'.tokens tokenOut).balanceOf recipient
  wethBalance : (w'.tokens d.weth).balanceOf d.here = (w.tokens d.weth).balanceOf d.here
  bpsBalance : (w'.tokens d.bpsToken).balanceOf d.here = (w.tokens d.bpsToken).balanceOf d.here
  allowances : ∀ token, (w'.tokens token).allowance d.here d.swapAdapter = 0
  supply : (w'.tokens d.bpsToken).totalSupply+bpsBurned = (w.tokens d.bpsToken).totalSupply

/-- Paying the gross input and nothing afterwards. -/
theorem Pulled.trader_pays {l'' : Ledger} {token trader : Address}
    (h : Pulled d l l' token trader gross) (hb : Ledger.Bystander trader l' l'') :
    (l'' token).sent trader = (l token).sent trader+gross ∧
    (l'' token).balanceOf trader+gross+(l token).received trader =
      (l token).balanceOf trader+(l'' token).received trader := by
  have hs := hb.sent token
  have hf := hb.flow token
  have h1 := h.sent
  have h2 := h.balance
  have h3 := h.received
  constructor <;> omega

/-- The four parties of a trade are distinct accounts. -/
def Parties (d : Deployment) (trader recipient : Address) : Prop :=
  [trader,recipient,d.stockBudgetRecipient,d.swapAdapter].Nodup

theorem Parties.distinct {trader recipient : Address} (h : Parties d trader recipient) :
    (trader ≠ recipient ∧ trader ≠ d.stockBudgetRecipient ∧ trader ≠ d.swapAdapter) ∧
      recipient ≠ d.stockBudgetRecipient ∧ recipient ≠ d.swapAdapter := by
  simp only [Parties,List.nodup_cons,List.mem_cons,List.not_mem_nil,or_false,not_or] at h
  exact ⟨h.1,h.2.1⟩

variable {minGross minUser userOutput proceeds : ℕ}

theorem Bought.conserves (hne : d.swapAdapter ≠ d.here) (hc : w.tokens.Closed d.here)
    (hparties : Parties d sender recipient)
    (h : Bought d (scripted d) w w' sender gross minUser minBurn recipient deadline userOutput
      burned) :
    ∃ stockBudget burnBudget userBudget, w'.router.events.head? =
        some (.officialBuy (w.router.tradeCount+1) sender recipient gross stockBudget burnBudget
          userBudget userOutput burned d.swapAdapter d.stockBudgetRecipient) ∧
      Split gross buyStockBps buyBurnBps stockBudget burnBudget userBudget ∧
      Conserves d w w' sender recipient d.weth d.bpsToken gross minUser stockBudget burned := by
  obtain ⟨stockBudget,burnBudget,userBudget,l₁,u₂,u₃,hsplit,hpull,hdel,hswap,⟨u₄,hbb,ht,-⟩,
    hrouter⟩ := h.steps
  obtain ⟨⟨htr,hts,hta⟩,hrs,hra⟩ := hparties.distinct
  have hp := pulled_of_transferFrom hc h.gross_pos hpull
  have hrh : recipient ≠ d.here := fun he => h.recipient_ne (by simp [he])
  obtain ⟨hsh,-⟩ := stockRecipient_ne d
  have hclosed₂ : u₂.tokens.Closed d.here := hdel.closed hp.closed
  obtain ⟨hcont,hclosed₃⟩ := hswap.contained hne hclosed₂
  have hrep := hbb.contained hne hclosed₃
  refine ⟨stockBudget,burnBudget,userBudget,by simp [hrouter],hsplit,?_⟩
  -- from the pull on, the trader pays nothing
  have htrader : Ledger.Bystander sender l₁ w'.tokens := by
    rw [ht]
    exact ((hdel.bystander hp.trader_ne_here).trans
      (hcont.bystander sender hp.trader_ne_here hta)).trans
      (hrep.bystander sender hp.trader_ne_here hta hp.trader_ne_zero)
  obtain ⟨hpaid,hbalance⟩ := hp.trader_pays htrader
  refine ⟨hpaid,hbalance,?_,?_,h.wethResidue,h.bpsResidue,?_,?_⟩
  · rw [ht,hrep.stock,hcont.stock,hdel.received]
    exact congrArg (· + stockBudget) (hp.others _ _ (Ne.symm hts) hsh)
  · have h1 := (hp.bystander recipient (Ne.symm htr)).balance_le d.bpsToken
    have h2 := (hdel.bystander hrh).balance_le d.bpsToken
    have h3 := hswap.gain
    have h4 := (hrep.bystander recipient hrh hra h.recipient_ne_zero).balance_le d.bpsToken
    rw [ht]
    simp only at h2
    omega
  · intro token
    rw [ht]
    exact hrep.closed token d.swapAdapter
  · rw [ht,hrep.supply,hcont.supply,hdel.supply]
    exact hp.supply _

theorem Sold.conserves (hne : d.swapAdapter ≠ d.here) (hc : w.tokens.Closed d.here)
    (hparties : Parties d sender recipient)
    (h : Sold d (scripted d) w w' sender gross minGross minUser minBurn recipient deadline proceeds
      userOutput burned) :
    ∃ stockBudget burnBudget, w'.router.events.head? =
        some (.officialSell (w.router.tradeCount+1) sender recipient gross proceeds stockBudget
          burnBudget userOutput burned d.swapAdapter d.stockBudgetRecipient) ∧
      minGross ≤ proceeds ∧
      Split proceeds sellStockBps sellBurnBps stockBudget burnBudget userOutput ∧
      Conserves d w w' sender recipient d.bpsToken d.weth gross minUser stockBudget burned := by
  obtain ⟨stockBudget,burnBudget,l₁,u₂,u₃,u₄,hsplit,hpull,hswap,hdel,hpay,⟨u₅,hbb,ht,-⟩,
    hrouter⟩ := h.steps
  obtain ⟨⟨htr,hts,hta⟩,hrs,hra⟩ := hparties.distinct
  have hp := pulled_of_transferFrom hc h.gross_pos hpull
  have hrh : recipient ≠ d.here := fun he => h.recipient_ne (by simp [he])
  obtain ⟨hsh,-⟩ := stockRecipient_ne d
  obtain ⟨hcont,hclosed₂⟩ := hswap.contained hne hp.closed
  have hrep := hbb.contained hne (hpay.closed (hdel.closed hclosed₂))
  refine ⟨stockBudget,burnBudget,by simp [hrouter],hswap.minimum,hsplit,?_⟩
  -- from the pull on, the trader pays nothing
  have htrader : Ledger.Bystander sender l₁ w'.tokens := by
    rw [ht]
    exact (((hcont.bystander sender hp.trader_ne_here hta).trans
      (hdel.bystander hp.trader_ne_here)).trans (hpay.bystander hp.trader_ne_here)).trans
      (hrep.bystander sender hp.trader_ne_here hta hp.trader_ne_zero)
  obtain ⟨hpaid,hbalance⟩ := hp.trader_pays htrader
  refine ⟨hpaid,hbalance,?_,?_,h.wethResidue,h.bpsResidue,?_,?_⟩
  · rw [ht,hrep.stock,hpay.balance_other hsh (Ne.symm hrs),hdel.received,hcont.stock]
    exact congrArg (· + stockBudget) (hp.others _ _ (Ne.symm hts) hsh)
  · have h1 := (hp.bystander recipient (Ne.symm htr)).balance_le d.weth
    have h2 := (hcont.bystander recipient hrh hra).balance_le d.weth
    have h3 := (hdel.bystander hrh).balance_le d.weth
    have h4 := hpay.received
    have h5 := (hrep.bystander recipient hrh hra h.recipient_ne_zero).balance_le d.weth
    have hmin := h.minimum
    rw [ht]
    simp only at h2
    omega
  · intro token
    rw [ht]
    exact hrep.closed token d.swapAdapter
  · rw [ht,hrep.supply,hpay.supply,hdel.supply,hcont.supply]
    exact hp.supply _

theorem Bought.closed (hne : d.swapAdapter ≠ d.here) (hc : w.tokens.Closed d.here)
    (h : Bought d (scripted d) w w' sender gross minUser minBurn recipient deadline userOutput
      burned) : w'.tokens.Closed d.here := by
  obtain ⟨_,_,_,l₁,u₂,u₃,-,hpull,hdel,hswap,⟨u₄,hbb,ht,-⟩,-⟩ := h.steps
  have hp := pulled_of_transferFrom hc h.gross_pos hpull
  have hclosed := (hswap.contained hne (hdel.closed hp.closed)).2
  rw [ht]
  exact (hbb.contained hne hclosed).closed

theorem Sold.closed (hne : d.swapAdapter ≠ d.here) (hc : w.tokens.Closed d.here)
    (h : Sold d (scripted d) w w' sender gross minGross minUser minBurn recipient deadline proceeds
      userOutput burned) : w'.tokens.Closed d.here := by
  obtain ⟨_,_,l₁,u₂,u₃,u₄,-,hpull,hswap,hdel,hpay,⟨u₅,hbb,ht,-⟩,-⟩ := h.steps
  have hp := pulled_of_transferFrom hc h.gross_pos hpull
  have hclosed := (hswap.contained hne hp.closed).2
  rw [ht]
  exact (hbb.contained hne (hpay.closed (hdel.closed hclosed))).closed

/-- The invariant of the router's runs. -/
structure Sound (d : Deployment) (w : World (List Behaviour)) : Prop where
  here_ne_zero : d.here ≠ 0
  adapter_ne_here : d.swapAdapter ≠ d.here
  closed : w.tokens.Closed d.here
  counted : Counted w.router

theorem Initial.sound (h : Initial d w) : Sound d w := by
  obtain ⟨o,ho⟩ := h.storage
  refine ⟨h.here_ne_zero,h.adapter_ne_here,h.closed,?_⟩
  rw [ho]
  exact ⟨rfl,rfl,rfl,rfl,rfl,rfl,rfl,rfl⟩

theorem Trade.exec_sound {script : List Behaviour} {trade : Trade} (hs : Sound d w)
    (h : trade.exec d (scripted d) { w with others := script } = .ok w') : Sound d w' := by
  have hs' : Sound d { w with others := script } := { hs with }
  cases trade with
  | buy sender gross minUser minBurn recipient deadline =>
    simp only [exec,bind_eq_ok,pure_eq_ok] at h
    obtain ⟨⟨⟨o,b⟩,u⟩,hu,rfl⟩ := h
    have hb := buyExactWethForBps_ok hu
    exact ⟨hs.here_ne_zero,hs.adapter_ne_here,hb.closed hs.adapter_ne_here hs'.closed,
      hb.counted hs'.counted⟩
  | sell sender gross minGross minUser minBurn recipient deadline =>
    simp only [exec,bind_eq_ok,pure_eq_ok] at h
    obtain ⟨⟨⟨p,o,b⟩,u⟩,hu,rfl⟩ := h
    have hb := sellExactBpsForWeth_ok hu
    exact ⟨hs.here_ne_zero,hs.adapter_ne_here,hb.closed hs.adapter_ne_here hs'.closed,
      hb.counted hs'.counted⟩

/-- The calls of the owner change no counter. -/
theorem Counted.of_ownerCall {r r' : Storage} (h : Counted r)
    (hr : ∃ o p, r' = { r with ownership := o, paused := p }) : Counted r' := by
  obtain ⟨o,p,rfl⟩ := hr
  exact { h with }

theorem exec_sound {tx : Tx} (hs : Sound d w) (h : exec d w tx = .ok w') : Sound d w' := by
  cases tx with
  | elapse seconds =>
    cases h
    exact { hs with }
  | trade script trade => exact Trade.exec_sound hs h
  | pause sender =>
    simp only [exec,bind_eq_ok,pure_eq_ok] at h
    obtain ⟨r,hr,rfl⟩ := h
    exact { hs with counted := hs.counted.of_ownerCall (pause_kept hr) }
  | unpause sender =>
    simp only [exec,bind_eq_ok,pure_eq_ok] at h
    obtain ⟨r,hr,rfl⟩ := h
    exact { hs with counted := hs.counted.of_ownerCall (unpause_kept hr) }
  | ownership sender call =>
    simp only [exec,bind_eq_ok,pure_eq_ok] at h
    obtain ⟨r,hr,rfl⟩ := h
    exact { hs with counted := hs.counted.of_ownerCall (ownerCall_kept hr) }
  | token asset call =>
    simp only [exec,bind_eq_ok,revertIf_eq_ok,mapError_eq_ok,exists_const,pure_eq_ok] at h
    obtain ⟨hne,l,hl,rfl⟩ := h
    exact { hs with
      closed := fun x => (Ledger.call_kept hs.here_ne_zero hne hs.closed hl x).closed }

theorem Reachable.sound (h : Reachable d w) : Sound d w :=
  Machine.Reachable.invariant (fun _ hi => hi.sound) (fun _ _ _ hs hx => exec_sound hs hx) h

/-- From every reachable state, against every behaviour of the adapter: a trade that
succeeds conserves value for all its parties, and the counters are the sums over the
trades. -/
theorem router_conserves (h : Reachable d w) :
    Counted w.router ∧
    ∀ script sender recipient, Parties d sender recipient →
      (∀ gross minUser minBurn deadline userOutput burned w',
        buyExactWethForBps d (scripted d) { w with others := script } sender gross minUser minBurn
          recipient deadline = .ok ((userOutput,burned),w') →
        ∃ stockBudget burnBudget userBudget, w'.router.events.head? =
            some (.officialBuy (w.router.tradeCount+1) sender recipient gross stockBudget burnBudget
              userBudget userOutput burned d.swapAdapter d.stockBudgetRecipient) ∧
          Split gross buyStockBps buyBurnBps stockBudget burnBudget userBudget ∧
          Conserves d w w' sender recipient d.weth d.bpsToken gross minUser stockBudget burned) ∧
      ∀ gross minGross minUser minBurn deadline proceeds userOutput burned w',
        sellExactBpsForWeth d (scripted d) { w with others := script } sender gross minGross minUser
          minBurn recipient deadline = .ok ((proceeds,userOutput,burned),w') →
        ∃ stockBudget burnBudget, w'.router.events.head? =
            some (.officialSell (w.router.tradeCount+1) sender recipient gross proceeds stockBudget
              burnBudget userOutput burned d.swapAdapter d.stockBudgetRecipient) ∧
          minGross ≤ proceeds ∧
          Split proceeds sellStockBps sellBurnBps stockBudget burnBudget userOutput ∧
          Conserves d w w' sender recipient d.bpsToken d.weth gross minUser stockBudget burned := by
  have hs := h.sound
  refine ⟨hs.counted,fun script sender recipient hparties => ?_⟩
  have hs' : Sound d { w with others := script } := { hs with }
  refine ⟨?_,?_⟩
  · intro gross minUser minBurn deadline userOutput burned w' hbuy
    obtain ⟨a,b,c,hevent,hsplit,hcons⟩ :=
      (buyExactWethForBps_ok hbuy).conserves hs'.adapter_ne_here hs'.closed hparties
    exact ⟨a,b,c,hevent,hsplit,{ hcons with }⟩
  · intro gross minGross minUser minBurn deadline proceeds userOutput burned w' hsell
    obtain ⟨a,b,hevent,hmin,hsplit,hcons⟩ :=
      (sellExactBpsForWeth_ok hsell).conserves hs'.adapter_ne_here hs'.closed hparties
    exact ⟨a,b,hevent,hmin,hsplit,{ hcons with }⟩

/-- A router for runs on fixed inputs: WETH is token `40`, BPS is token `60`. -/
def sample : Deployment :=
  ⟨300,60,40,61,62,by decide,by decide,by decide,by decide⟩

/-- The trader `1` holds WETH that the router may pull, the adapter holds BPS. -/
def sampleStart : World (List Behaviour) :=
  Machine.run (exec sample) ⟨0,fun _ => Token.empty,[],.deployed 9⟩
    [.token 40 (.mint 4 1 10000),.token 40 (.approve 1 300 10000),.token 60 (.mint 4 61 5000)]

/-- An adapter that sells at ten to one, once for the user and once for the burn. -/
def sampleScript : List Behaviour :=
  [⟨[.pull 40 63 9700,.transfer 60 2 970],some 970⟩,⟨[.pull 40 63 100,.transfer 60 300 10],some 10⟩]

theorem sampleStart_reachable : Reachable sample sampleStart :=
  (Machine.Reachable.of_init ⟨by decide,by decide,⟨9,rfl⟩,fun _ _ => rfl⟩).run _

theorem sample_buy_conserves : ∃ w', buyExactWethForBps sample (scripted sample)
      { sampleStart with others := sampleScript } 1 10000 900 1 2 0 = .ok ((970,10),w') ∧
    (w'.tokens 60).totalSupply+10 = (sampleStart.tokens 60).totalSupply := by
  have hok : Prod.fst <$> buyExactWethForBps sample (scripted sample)
      { sampleStart with others := sampleScript } 1 10000 900 1 2 0 = .ok (970,10) := by
    decide +kernel
  rw [map_eq_ok] at hok
  obtain ⟨⟨out,w'⟩,hbuy,rfl⟩ := hok
  obtain ⟨_,_,_,-,-,hcons⟩ := ((router_conserves sampleStart_reachable).2 sampleScript 1 2
    (by unfold Parties; decide)).1 _ _ _ _ _ _ _ hbuy
  exact ⟨w',hbuy,hcons.supply⟩

end TradeRouter
end BpsProtocol
