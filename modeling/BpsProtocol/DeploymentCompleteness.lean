import BpsProtocol.DeploymentPlan

/-! What a validated deployment plan lacks.
Given fresh addresses, the constructors succeed exactly where seven comparisons hold that the
validation does not make.  A plan that goes through gives the wired systems of the protocol. -/
namespace BpsProtocol
namespace BpsDeployment

open Checked Erc20

variable {computeCreateAddress : (deployer : Address) → (nonce : ℕ) → Address}
  {this : Address} {chain : Chain} {c : DeployConfig}

/-- The address of the creation after `i` others. -/
def place (computeCreateAddress : (deployer : Address) → (nonce : ℕ) → Address) (this : Address)
    (chain : Chain) (i : ℕ) : Address :=
  computeCreateAddress this (chain.nonce+i)

/-- The next eight addresses of the creator: they differ, none is zero, and none is taken. -/
structure Fresh (computeCreateAddress : (deployer : Address) → (nonce : ℕ) → Address)
    (this : Address) (chain : Chain) : Prop where
  injective : ∀ i < 8, ∀ j < 8, place computeCreateAddress this chain i =
    place computeCreateAddress this chain j → i = j
  nonzero : ∀ i < 8, place computeCreateAddress this chain i ≠ 0
  empty : ∀ i < 8, chain.code (place computeCreateAddress this chain i) = none

/-- What the constructors compare and the validation does not. -/
structure Complete (c : DeployConfig) (p : Deployed) : Prop where
  poolFee : c.poolFee ≠ 0
  registry : c.weth ≠ c.rialtoRegistry
  venue : c.weth ≠ c.swapRouter02
  operator : c.acquisitionOperator ∉ [p.claimManager,p.stockVault]
  publisher : c.rootPublisher ∉ [p.claimManager,p.stockVault]
  reserve : c.reserveRecipient ∉ [p.stockVault,p.rialtoAdapter,p.coordinator]
  basket : c.reserveRecipient ∉ c.stockBasket

/-! ## What the validation finds out -/

/-- The facts of an accepted configuration that the constructors need. -/
structure Validated (chain : Chain) (c : DeployConfig) : Prop where
  chainId : chain.chainId = ROBINHOOD_CHAIN_ID
  weth_ne_zero : c.weth ≠ 0
  registry_ne_zero : c.rialtoRegistry ≠ 0
  venue_ne_zero : c.swapRouter02 ≠ 0
  recipient_ne_zero : c.bpsRecipient ≠ 0
  owner_ne_zero : c.protocolOwner ≠ 0
  reserve_ne_zero : c.reserveRecipient ≠ 0
  operator_ne_zero : c.acquisitionOperator ≠ 0
  publisher_ne_zero : c.rootPublisher ≠ 0
  recovery_ne_zero : c.claimRecoveryRecipient ≠ 0
  weth_code : chain.code c.weth ≠ none
  registry_code : chain.code c.rialtoRegistry ≠ none
  venue_code : chain.code c.swapRouter02 ≠ none
  reserve_ne_weth : c.reserveRecipient ≠ c.weth
  basket_ne_nil : c.stockBasket ≠ []
  basket : ∀ token ∈ c.stockBasket, token ≠ 0 ∧ token ≠ c.weth ∧ chain.code token ≠ none
  basket_nodup : c.stockBasket.Nodup

theorem requireAddr_ok {a : Address} {field : String} {u : Unit}
    (h : requireAddr a field = .ok u) : a ≠ 0 := by
  simp only [requireAddr,bind_eq_ok,revertIf_eq_ok,exists_const] at h
  exact h.1

theorem validateBasket_ok {i : ℕ} {before basket : List Address} {u : Unit}
    (h : validateBasket chain c true i before basket = .ok u) :
    (∀ token ∈ basket, token ≠ 0 ∧ token ≠ c.weth ∧ chain.code token ≠ none) ∧ basket.Nodup ∧
      ∀ token ∈ basket, token ∉ before := by
  induction basket generalizing i before with
  | nil => exact ⟨by simp,List.nodup_nil,by simp⟩
  | cons token basket ih =>
    simp only [validateBasket,bind_eq_ok,revertIf_eq_ok,exists_const,true_and,not_or,
      Option.isNone_iff_eq_none] at h
    obtain ⟨hzero,hweth,hcode,hbefore,h⟩ := h
    obtain ⟨hall,hnodup,hfresh⟩ := ih h
    refine ⟨List.forall_mem_cons.2 ⟨⟨hzero.1,hweth,hcode⟩,hall⟩,List.nodup_cons.2 ⟨?_,hnodup⟩,
      List.forall_mem_cons.2 ⟨hbefore,?_⟩⟩
    · intro hmem
      exact hfresh token hmem (List.mem_append_right _ (List.mem_singleton_self _))
    · intro t ht hmem
      exact hfresh t ht (List.mem_append_left _ hmem)

theorem validate_ok {u : Unit} (h : validate chain c true = .ok u) : Validated chain c := by
  simp only [validate,validateExternals,requireNotSystem,bind_eq_ok,revertIf_eq_ok,exists_const,
    not_not,if_true,orRevert_eq_ok,Option.isNone_iff_eq_none,not_or] at h
  obtain ⟨hchain,_,-,_,hweth,_,hregistry,_,hvenue,_,hrecipient,_,howner,_,hreserve,_,hoperator,_,
    hpublisher,_,hrecovery,⟨hwethCode,hregistryCode,hvenueCode,-⟩,hreserveSystem,-,-,-,-,-,hnil,
    hbasket⟩ := h
  obtain ⟨hall,hnodup,-⟩ := validateBasket_ok hbasket
  exact
    { chainId := hchain
      weth_ne_zero := requireAddr_ok hweth
      registry_ne_zero := requireAddr_ok hregistry
      venue_ne_zero := requireAddr_ok hvenue
      recipient_ne_zero := requireAddr_ok hrecipient
      owner_ne_zero := requireAddr_ok howner
      reserve_ne_zero := requireAddr_ok hreserve
      operator_ne_zero := requireAddr_ok hoperator
      publisher_ne_zero := requireAddr_ok hpublisher
      recovery_ne_zero := requireAddr_ok hrecovery
      weth_code := hwethCode
      registry_code := hregistryCode
      venue_code := hvenueCode
      reserve_ne_weth := hreserveSystem.1
      basket_ne_nil := hnil
      basket := hall
      basket_nodup := hnodup }

/-! ## The eight creations -/

/-- A creation at a free address does what its constructor does. -/
theorem create_eq_ok {construct : (here : Address) → chain.code here = none →
    Except ConstructorError Contract} {r : Address × Chain}
    (hfree : chain.code (computeCreateAddress this chain.nonce) = none) :
    create computeCreateAddress this chain construct = .ok r ↔
      ∃ contract, construct (computeCreateAddress this chain.nonce) hfree = .ok contract ∧
        r = (computeCreateAddress this chain.nonce,
          chain.add (computeCreateAddress this chain.nonce) contract) := by
  simp only [create,dif_pos hfree,bind_eq_ok,mapError_eq_ok,pure_eq_ok]
  exact exists_congr fun contract => and_congr_right fun _ => eq_comm

@[simp] theorem Chain.add_chainId (here : Address) (contract : Contract) :
    (chain.add here contract).chainId = chain.chainId := rfl

@[simp] theorem Chain.add_nonce (here : Address) (contract : Contract) :
    (chain.add here contract).nonce = chain.nonce+1 := rfl

@[simp] theorem Chain.add_code (here : Address) (contract : Contract) :
    (chain.add here contract).code = Function.update chain.code here (some contract) := rfl

/-- The chain after the first `k` creations of the plan: their addresses have the code that
was built for them, and nothing else has changed. -/
structure Stage (computeCreateAddress : (deployer : Address) → (nonce : ℕ) → Address)
    (this : Address) (start : Chain) (Built : ℕ → Contract → Prop) (k : ℕ) (chain : Chain) :
    Prop where
  chainId : chain.chainId = start.chainId
  nonce : chain.nonce = start.nonce+k
  code : ∀ a, (∀ i < k, a ≠ place computeCreateAddress this start i) → chain.code a = start.code a
  built : ∀ i < k, ∃ contract, Built i contract ∧
    chain.code (place computeCreateAddress this start i) = some contract

namespace Stage

variable {start chain' : Chain} {k : ℕ} {Built : ℕ → Contract → Prop} {a : Address}
  {construct : (here : Address) → chain.code here = none → Except ConstructorError Contract}

theorem init : Stage computeCreateAddress this start Built 0 start :=
  ⟨rfl,rfl,fun _ _ => rfl,fun i hi => absurd hi (Nat.not_lt_zero i)⟩

theorem free (h : Stage computeCreateAddress this start Built k chain)
    (hfresh : Fresh computeCreateAddress this start) (hk : k < 8) :
    chain.code (place computeCreateAddress this start k) = none := by
  rw [h.code _ fun i hi heq => ?_]
  · exact hfresh.empty k hk
  · have := hfresh.injective k hk i (by omega) heq
    omega

theorem next (h : Stage computeCreateAddress this start Built k chain)
    (hfresh : Fresh computeCreateAddress this start) (hk : k < 8) {contract : Contract}
    (hbuilt : Built k contract) : Stage computeCreateAddress this start Built (k+1)
      (chain.add (place computeCreateAddress this start k) contract) where
  chainId := h.chainId
  nonce := by
    rw [Chain.add_nonce,h.nonce]
    rfl
  code a ha := by
    rw [Chain.add_code,Function.update_of_ne (ha k (Nat.lt_succ_self k))]
    exact h.code a fun i hi => ha i (by omega)
  built i hi := by
    rw [Chain.add_code]
    by_cases heq : i = k
    · rw [heq,Function.update_self]
      exact ⟨contract,hbuilt,rfl⟩
    · rw [Function.update_of_ne fun hp => heq (hfresh.injective i (by omega) k hk hp)]
      exact h.built i (by omega)

/-- What had code still has it. -/
theorem has_code (h : Stage computeCreateAddress this start Built k chain)
    (hfresh : Fresh computeCreateAddress this start) (hk : k ≤ 8) (ha : start.code a ≠ none) :
    chain.code a ≠ none := by
  rwa [h.code a fun i hi heq => ha (heq ▸ hfresh.empty i (by omega))]

theorem built_code (h : Stage computeCreateAddress this start Built k chain) {i : ℕ}
    (hi : i < k) : chain.code (place computeCreateAddress this start i) ≠ none := by
  obtain ⟨contract,-,hcode⟩ := h.built i hi
  rw [hcode]
  simp

/-- A creation that succeeds is the next one of the plan. -/
theorem of_create (h : Stage computeCreateAddress this start (fun _ _ => True) k chain)
    (hfresh : Fresh computeCreateAddress this start) (hk : k < 8)
    (hc : create computeCreateAddress this chain construct = .ok (a,chain')) :
    a = place computeCreateAddress this start k ∧
      Stage computeCreateAddress this start (fun _ _ => True) (k+1) chain' ∧
      ∃ hfree contract, construct (place computeCreateAddress this start k) hfree =
        .ok contract := by
  have hplace : computeCreateAddress this chain.nonce =
      place computeCreateAddress this start k := by
    rw [h.nonce,place]
  have hfree := h.free hfresh hk
  rw [← hplace] at hfree
  obtain ⟨contract,hcontract,heq⟩ := (create_eq_ok hfree).1 hc
  obtain ⟨rfl,rfl⟩ := Prod.mk.inj heq
  simp only [hplace] at hcontract ⊢
  exact ⟨trivial,h.next hfresh hk trivial,_,contract,hcontract⟩

/-- The next creation succeeds where its constructor does. -/
theorem create_succeeds (h : Stage computeCreateAddress this start Built k chain)
    (hfresh : Fresh computeCreateAddress this start) (hk : k < 8) {contract : Contract}
    (hbuilt : Built k contract)
    (hc : ∀ hfree, construct (place computeCreateAddress this start k) hfree = .ok contract) :
    ∃ chain', create computeCreateAddress this chain construct =
      .ok (place computeCreateAddress this start k,chain') ∧
      Stage computeCreateAddress this start Built (k+1) chain' := by
  have hplace : computeCreateAddress this chain.nonce =
      place computeCreateAddress this start k := by
    rw [h.nonce,place]
  have hfree := h.free hfresh hk
  rw [← hplace] at hfree
  refine ⟨_,(create_eq_ok hfree).2 ⟨contract,?_,?_⟩,h.next hfresh hk hbuilt⟩
  · simp only [hplace]
    exact hc _
  · rw [hplace]

/-- The plan goes on where the constructor of its next contract succeeds. -/
theorem bind_succeeds {α : Type} {f : Address × Chain → Except Error α}
    (h : Stage computeCreateAddress this start Built k chain)
    (hfresh : Fresh computeCreateAddress this start) (hk : k < 8) {contract : Contract}
    (hbuilt : Built k contract)
    (hc : ∀ hfree, construct (place computeCreateAddress this start k) hfree = .ok contract)
    (hf : ∀ chain', Stage computeCreateAddress this start Built (k+1) chain' →
      ∃ r, f (place computeCreateAddress this start k,chain') = .ok r) :
    ∃ r, (create computeCreateAddress this chain construct >>= f) = .ok r := by
  obtain ⟨chain',hcreate,hstage⟩ := h.create_succeeds hfresh hk hbuilt hc
  rw [hcreate,ok_bind]
  exact hf chain' hstage

end Stage

/-! ## The configurations of the contracts -/

theorem Fresh.ne (hfresh : Fresh computeCreateAddress this chain) {i j : ℕ} (hi : i < 8)
    (hj : j < 8) (hij : i ≠ j) :
    place computeCreateAddress this chain i ≠ place computeCreateAddress this chain j :=
  fun h => hij (hfresh.injective i hi j hj h)

/-- What has code is none of the new contracts. -/
theorem Fresh.ne_of_code (hfresh : Fresh computeCreateAddress this chain) {a : Address}
    (ha : chain.code a ≠ none) {i : ℕ} (hi : i < 8) :
    a ≠ place computeCreateAddress this chain i :=
  fun h => ha (h ▸ hfresh.empty i hi)

/-- The five configurations with checks, as the plan wires them. -/
structure Wiring (c : DeployConfig) (p : Deployed) where
  adapter : RialtoAdapter.Deployment
  coordinator : Coordinator.Deployment
  vault : StockVault.Deployment
  uniswap : UniswapAdapter.Deployment
  router : TradeRouter.Deployment
  adapter_eq : adapter.here = p.rialtoAdapter ∧ adapter.stockAcquisitionVault = p.stockVault ∧
    adapter.weth = c.weth ∧ adapter.routerRegistry = c.rialtoRegistry
  coordinator_eq : coordinator.here = p.coordinator ∧
    coordinator.stockAcquisitionVault = p.stockVault ∧
    coordinator.distributionClaimManager = p.claimManager ∧
    coordinator.acquisitionOperator = c.acquisitionOperator ∧
    coordinator.rootPublisher = c.rootPublisher
  vault_eq : vault.here = p.stockVault ∧ vault.weth = c.weth ∧
    vault.acquisitionAdapter = p.rialtoAdapter ∧ vault.acquisitionExecutor = p.coordinator ∧
    vault.reserveRecipient = c.reserveRecipient ∧
    vault.distributionFundingCoordinator = p.coordinator ∧
    vault.approvedStockTokens = c.stockBasket
  uniswap_eq : uniswap.here = p.uniswapAdapter ∧ uniswap.bpsTradeRouter = p.tradeRouter ∧
    uniswap.bps = p.bpsToken ∧ uniswap.weth = c.weth ∧ uniswap.swapRouter02 = c.swapRouter02 ∧
    uniswap.poolFee = c.poolFee
  router_eq : router.here = p.tradeRouter ∧ router.bpsToken = p.bpsToken ∧ router.weth = c.weth ∧
    router.swapAdapter = p.uniswapAdapter ∧ router.stockBudgetRecipient = p.stockVault

section Systems

variable {p : Deployed}

/-- The vault with its acquisition adapter. -/
def Wiring.acquisition (w : Wiring c p) : RialtoAdapter.System where
  vault := w.vault
  adapter := w.adapter
  adapter_here := w.vault_eq.2.2.1.trans w.adapter_eq.1.symm
  vault_here := w.adapter_eq.2.1.trans w.vault_eq.1.symm
  weth := w.adapter_eq.2.2.1.trans w.vault_eq.2.1.symm

/-- The coordinator with the vault and the claim manager. -/
def Wiring.distribution (w : Wiring c p) (manager : ClaimManager.Deployment)
    (hmanager : manager.here = p.claimManager) : Coordinator.System where
  coordinator := w.coordinator
  vault := w.vault
  manager := manager
  vault_here := w.coordinator_eq.2.1.trans w.vault_eq.1.symm
  manager_here := w.coordinator_eq.2.2.1.trans hmanager.symm
  executor := w.vault_eq.2.2.2.1.trans w.coordinator_eq.1.symm
  releases_to := w.vault_eq.2.2.2.2.2.1.trans w.coordinator_eq.1.symm

/-- The trade router with its swap adapter. -/
def Wiring.trading (w : Wiring c p) (hp : p.tradeRouter ≠ p.uniswapAdapter) :
    UniswapAdapter.System where
  router := w.router
  adapter := w.uniswap
  adapter_here := w.router_eq.2.2.2.1.trans w.uniswap_eq.1.symm
  router_here := w.uniswap_eq.2.1.trans w.router_eq.1.symm
  bps := w.uniswap_eq.2.2.1.trans w.router_eq.2.1.symm
  weth := w.uniswap_eq.2.2.2.1.trans w.router_eq.2.2.1.symm
  distinct := fun h => hp (w.router_eq.1.symm.trans (h.trans w.uniswap_eq.1))

end Systems

/-- A validated and complete configuration can be wired. -/
def Wiring.of_complete (hv : Validated chain c) (hfresh : Fresh computeCreateAddress this chain)
    (hc : Complete c (predict computeCreateAddress this chain.nonce)) :
    Wiring c (predict computeCreateAddress this chain.nonce) where
  adapter := {
    here := place computeCreateAddress this chain 3
    stockAcquisitionVault := place computeCreateAddress this chain 5
    weth := c.weth
    routerRegistry := c.rialtoRegistry
    nonzero := by
      simp only [List.mem_cons,List.not_mem_nil,or_false,not_or]
      exact ⟨(hfresh.nonzero 5 (by decide)).symm,hv.weth_ne_zero.symm,hv.registry_ne_zero.symm⟩
    distinct := by
      simp only [List.nodup_cons,List.mem_cons,List.not_mem_nil,or_false,not_or,
        not_false_eq_true,List.nodup_nil,and_true]
      exact ⟨⟨hfresh.ne_of_code hv.weth_code (by decide),hc.registry⟩,
        (hfresh.ne_of_code hv.registry_code (by decide)).symm⟩ }
  coordinator := {
    here := place computeCreateAddress this chain 4
    stockAcquisitionVault := place computeCreateAddress this chain 5
    distributionClaimManager := place computeCreateAddress this chain 2
    acquisitionOperator := c.acquisitionOperator
    rootPublisher := c.rootPublisher
    nonzero := by
      simp only [List.mem_cons,List.not_mem_nil,or_false,not_or]
      exact ⟨(hfresh.nonzero 5 (by decide)).symm,(hfresh.nonzero 2 (by decide)).symm,
        hv.operator_ne_zero.symm,hv.publisher_ne_zero.symm⟩
    vault_distinct := by
      have ho := hc.operator
      have hp := hc.publisher
      simp only [List.mem_cons,List.not_mem_nil,or_false,not_or] at ho hp ⊢
      exact ⟨hfresh.ne (by decide) (by decide) (by decide),Ne.symm ho.2,Ne.symm hp.2⟩
    manager_distinct := by
      have ho := hc.operator
      have hp := hc.publisher
      simp only [List.mem_cons,List.not_mem_nil,or_false,not_or] at ho hp ⊢
      exact ⟨Ne.symm ho.1,Ne.symm hp.1⟩
    manager_deployed := hfresh.ne (by decide) (by decide) (by decide) }
  vault := {
    here := place computeCreateAddress this chain 5
    weth := c.weth
    acquisitionAdapter := place computeCreateAddress this chain 3
    acquisitionExecutor := place computeCreateAddress this chain 4
    reserveRecipient := c.reserveRecipient
    distributionFundingCoordinator := place computeCreateAddress this chain 4
    approvedStockTokens := c.stockBasket
    nonzero := by
      simp only [List.mem_cons,List.not_mem_nil,or_false,not_or]
      exact ⟨hv.weth_ne_zero.symm,(hfresh.nonzero 3 (by decide)).symm,
        (hfresh.nonzero 4 (by decide)).symm,hv.reserve_ne_zero.symm,
        (hfresh.nonzero 4 (by decide)).symm⟩
    adapter_distinct := by
      simp only [List.mem_cons,List.not_mem_nil,or_false,not_or]
      exact ⟨(hfresh.ne_of_code hv.weth_code (by decide)).symm,
        hfresh.ne (by decide) (by decide) (by decide)⟩
    reserve_distinct := by
      have hr := hc.reserve
      simp only [List.mem_cons,List.not_mem_nil,or_false,not_or] at hr ⊢
      exact ⟨hr.1,hr.2.1,hv.reserve_ne_weth⟩
    coordinator_distinct := by
      have hr := hc.reserve
      simp only [List.mem_cons,List.not_mem_nil,or_false,not_or] at hr ⊢
      exact ⟨hfresh.ne (by decide) (by decide) (by decide),
        hfresh.ne (by decide) (by decide) (by decide),
        (hfresh.ne_of_code hv.weth_code (by decide)).symm,Ne.symm hr.2.2⟩
    basket_ne_nil := hv.basket_ne_nil
    basket_system := by
      intro token htoken
      obtain ⟨hzero,hweth,hcode⟩ := hv.basket token htoken
      simp only [List.mem_cons,List.not_mem_nil,or_false,not_or]
      exact ⟨hzero,hweth,hfresh.ne_of_code hcode (by decide),hfresh.ne_of_code hcode (by decide),
        hfresh.ne_of_code hcode (by decide),fun heq => hc.basket (heq ▸ htoken),
        hfresh.ne_of_code hcode (by decide)⟩
    basket_nodup := hv.basket_nodup }
  uniswap := {
    here := place computeCreateAddress this chain 6
    bpsTradeRouter := place computeCreateAddress this chain 7
    bps := place computeCreateAddress this chain 0
    weth := c.weth
    swapRouter02 := c.swapRouter02
    poolFee := c.poolFee
    nonzero := by
      simp only [List.mem_cons,List.not_mem_nil,or_false,not_or]
      exact ⟨(hfresh.nonzero 7 (by decide)).symm,(hfresh.nonzero 0 (by decide)).symm,
        hv.weth_ne_zero.symm,hv.venue_ne_zero.symm⟩
    pair_distinct := (hfresh.ne_of_code hv.weth_code (by decide)).symm
    venue_distinct := by
      simp only [List.mem_cons,List.not_mem_nil,or_false,not_or]
      exact ⟨hfresh.ne_of_code hv.venue_code (by decide),hc.venue.symm,
        hfresh.ne_of_code hv.venue_code (by decide)⟩
    router_distinct := by
      simp only [List.mem_cons,List.not_mem_nil,or_false,not_or]
      exact ⟨hfresh.ne (by decide) (by decide) (by decide),
        (hfresh.ne_of_code hv.weth_code (by decide)).symm⟩
    poolFee_ne_zero := hc.poolFee }
  router := {
    here := place computeCreateAddress this chain 7
    bpsToken := place computeCreateAddress this chain 0
    weth := c.weth
    swapAdapter := place computeCreateAddress this chain 6
    stockBudgetRecipient := place computeCreateAddress this chain 5
    nonzero := by
      simp only [List.mem_cons,List.not_mem_nil,or_false,not_or]
      exact ⟨(hfresh.nonzero 0 (by decide)).symm,hv.weth_ne_zero.symm,
        (hfresh.nonzero 6 (by decide)).symm,(hfresh.nonzero 5 (by decide)).symm⟩
    pair_distinct := (hfresh.ne_of_code hv.weth_code (by decide)).symm
    adapter_distinct := by
      simp only [List.mem_cons,List.not_mem_nil,or_false,not_or]
      exact ⟨hfresh.ne (by decide) (by decide) (by decide),
        (hfresh.ne_of_code hv.weth_code (by decide)).symm⟩
    recipient_distinct := by
      simp only [List.mem_cons,List.not_mem_nil,or_false,not_or]
      exact ⟨hfresh.ne (by decide) (by decide) (by decide),
        hfresh.ne (by decide) (by decide) (by decide),
        (hfresh.ne_of_code hv.weth_code (by decide)).symm,
        hfresh.ne (by decide) (by decide) (by decide)⟩ }
  adapter_eq := ⟨rfl,rfl,rfl,rfl⟩
  coordinator_eq := ⟨rfl,rfl,rfl,rfl,rfl⟩
  vault_eq := ⟨rfl,rfl,rfl,rfl,rfl,rfl,rfl⟩
  uniswap_eq := ⟨rfl,rfl,rfl,rfl,rfl,rfl⟩
  router_eq := ⟨rfl,rfl,rfl,rfl,rfl⟩

/-! ## The plan -/

/-- A plan that goes through was complete, and every address is the predicted one. -/
theorem deployAndVerify_complete (hfresh : Fresh computeCreateAddress this chain)
    {r : Deployed × Chain} (h : deployAndVerify computeCreateAddress this chain c = .ok r) :
    r.1 = predict computeCreateAddress this chain.nonce ∧
      Complete c (predict computeCreateAddress this chain.nonce) := by
  simp only [deployAndVerify,bind_eq_ok,revertIf_eq_ok,exists_const] at h
  obtain ⟨_,hvalid,-,-,⟨bps,chain₁⟩,h₁,⟨locking,chain₂⟩,h₂,⟨manager,chain₃⟩,h₃,⟨rialto,chain₄⟩,h₄,
    ⟨coord,chain₅⟩,h₅,⟨vault,chain₆⟩,h₆,⟨uni,chain₇⟩,h₇,⟨router,chain₈⟩,h₈,h⟩ := h
  have s₀ : Stage computeCreateAddress this chain (fun _ _ => True) 0 chain := Stage.init
  obtain ⟨rfl,s₁,-⟩ := s₀.of_create hfresh (by decide) h₁
  obtain ⟨rfl,s₂,-⟩ := s₁.of_create hfresh (by decide) h₂
  obtain ⟨rfl,s₃,-⟩ := s₂.of_create hfresh (by decide) h₃
  obtain ⟨rfl,s₄,-,kr,hr⟩ := s₃.of_create hfresh (by decide) h₄
  obtain ⟨rfl,s₅,hcfree,kc,hc⟩ := s₄.of_create hfresh (by decide) h₅
  obtain ⟨rfl,s₆,-,kv,hv⟩ := s₅.of_create hfresh (by decide) h₆
  obtain ⟨rfl,s₇,-,ku,hu⟩ := s₆.of_create hfresh (by decide) h₇
  obtain ⟨rfl,s₈,-⟩ := s₇.of_create hfresh (by decide) h₈
  obtain ⟨da,hda,-⟩ := map_eq_ok.1 hr
  obtain ⟨dc,hdc,-⟩ := map_eq_ok.1 hc
  obtain ⟨dv,hdv,-⟩ := map_eq_ok.1 hv
  obtain ⟨du,hdu,-⟩ := map_eq_ok.1 hu
  obtain ⟨-,-,-,hweth,hregistry⟩ := newRialtoStockAcquisitionAdapter_eq_ok.1 hda
  obtain ⟨-,-,hcvault,hcmanager,hcoperator,hcpublisher⟩ :=
    newDistributionFundingCoordinator_eq_ok.1 hdc
  obtain ⟨hhere,-,hvadapter,-,hreserve,hvcoordinator,hbasket⟩ :=
    newStockAcquisitionVault_eq_ok.1 hdv
  obtain ⟨-,-,-,-,huweth,hvenue,hfee⟩ := newUniswapV3BPSSwapAdapter_eq_ok.1 hdu
  have hda := da.distinct
  have hdcv := dc.vault_distinct
  have hdcm := dc.manager_distinct
  have hdvr := dv.reserve_distinct
  have hdvc := dv.coordinator_distinct
  have hduv := du.venue_distinct
  rw [hweth,hregistry] at hda
  rw [hcvault,hcmanager,hcoperator,hcpublisher] at hdcv
  rw [hcmanager,hcoperator,hcpublisher] at hdcm
  rw [hreserve,hhere,hvadapter] at hdvr
  rw [hvcoordinator,hreserve] at hdvc
  rw [hvenue,huweth] at hduv
  simp only [List.nodup_cons,List.mem_cons,List.not_mem_nil,or_false,not_or] at hda hdcv hdcm
  simp only [List.mem_cons,List.not_mem_nil,or_false,not_or] at hdvr hdvc hduv
  obtain ⟨_,-,_,-,h⟩ := h
  have hr : r.1 = predict computeCreateAddress this chain.nonce := by
    rw [← pure_eq_ok.1 h]
    rfl
  refine ⟨hr,?_⟩
  exact
    { poolFee := hfee ▸ du.poolFee_ne_zero
      registry := hda.1.2
      venue := fun heq => hduv.2.1 heq.symm
      operator := by
        simp only [List.mem_cons,List.not_mem_nil,or_false,not_or]
        exact ⟨fun heq => hdcm.1 heq.symm,fun heq => hdcv.2.1 heq.symm⟩
      publisher := by
        simp only [List.mem_cons,List.not_mem_nil,or_false,not_or]
        exact ⟨fun heq => hdcm.2 heq.symm,fun heq => hdcv.2.2 heq.symm⟩
      reserve := by
        simp only [List.mem_cons,List.not_mem_nil,or_false,not_or]
        exact ⟨hdvr.1,hdvr.2.1,fun heq => hdvc.2.2.2 heq.symm⟩
      basket := fun hmem => by
        have hsystem := (dv.basket_system _ (hbasket.symm ▸ hmem)).2
        rw [hreserve] at hsystem
        simp at hsystem }

/-- The contracts of the plan, in its order. -/
def Wiring.contracts {p : Deployed} (w : Wiring c p) (token : Contract) : List Contract :=
  [token,.lockingVault p.bpsToken c.protocolOwner,
    .claimManager p.coordinator c.claimRecoveryRecipient,.rialtoAdapter w.adapter,
    .coordinator w.coordinator,.stockVault w.vault,.uniswapAdapter w.uniswap,
    .tradeRouter c.protocolOwner w.router]

theorem Stage.code_eq {k : ℕ} {start : Chain} {K : List Contract}
    (h : Stage computeCreateAddress this start (fun i x => K[i]? = some x) k chain) {i : ℕ}
    (hi : i < k) {contract : Contract} (hK : K[i]? = some contract) :
    chain.code (place computeCreateAddress this start i) = some contract := by
  obtain ⟨contract',hcontract,hcode⟩ := h.built i hi
  rw [hcode,← hcontract,hK]

theorem forM_revertIf_of_not {α : Type} {l : List α} {P : α → Prop} [DecidablePred P] {e : Error}
    (h : ∀ x ∈ l, ¬P x) : (l.forM fun x => revertIf (P x) e) = .ok () := by
  induction l with
  | nil => rfl
  | cons x l ih =>
    rw [List.forM_eq_forM,List.forM_cons,revertIf_of_not (h x List.mem_cons_self),ok_bind]
    exact ih fun y hy => h y (List.mem_cons_of_mem x hy)

/-- After the eight creations of a wired plan the views agree with it. -/
theorem Wiring.assertImmutables_ok {start : Chain} {token : Contract}
    (w : Wiring c (predict computeCreateAddress this start.nonce))
    (h : Stage computeCreateAddress this start (fun i x => (w.contracts token)[i]? = some x) 8
      chain) :
    assertImmutables chain c (predict computeCreateAddress this start.nonce) = .ok () := by
  have hvault : stockVaultAt chain (place computeCreateAddress this start 5) = .ok w.vault := by
    rw [stockVaultAt,h.code_eq (by decide) rfl]
  have hadapter : rialtoAdapterAt chain (place computeCreateAddress this start 3) =
      .ok w.adapter := by
    rw [rialtoAdapterAt,h.code_eq (by decide) rfl]
  have hcoordinator : coordinatorAt chain (place computeCreateAddress this start 4) =
      .ok w.coordinator := by
    rw [coordinatorAt,h.code_eq (by decide) rfl]
  have howner : managerOwnerAt chain (place computeCreateAddress this start 2) =
      .ok (place computeCreateAddress this start 4) := by
    rw [managerOwnerAt,h.code_eq (by decide) rfl]
    rfl
  have hrouter : tradeRouterAt chain (place computeCreateAddress this start 7) =
      .ok w.router := by
    rw [tradeRouterAt,h.code_eq (by decide) rfl]
  have huniswap : uniswapAdapterAt chain (place computeCreateAddress this start 6) =
      .ok w.uniswap := by
    rw [uniswapAdapterAt,h.code_eq (by decide) rfl]
  have hbasket : (c.stockBasket.forM fun token =>
      revertIf (w.vault.isApprovedStockToken token = false)
        (.immutableMismatch "vault.approvedStock")) = (.ok () : Except Error Unit) := by
    refine forM_revertIf_of_not fun token htoken => ?_
    rw [StockVault.Deployment.isApprovedStockToken,w.vault_eq.2.2.2.2.2.2]
    simpa using htoken
  obtain ⟨-,hvweth,hvadapter,hvexecutor,hvreserve,hvcoordinator,-⟩ := w.vault_eq
  obtain ⟨-,havault,-,haregistry⟩ := w.adapter_eq
  obtain ⟨-,hcvault,hcmanager,hcoperator,hcpublisher⟩ := w.coordinator_eq
  obtain ⟨-,hrbps,-,hradapter,hrrecipient⟩ := w.router_eq
  simp only [assertImmutables,assertImmutable,bind_eq_ok,revertIf_eq_ok,exists_const,not_not]
  exact ⟨w.vault,hvault,hvexecutor,hvcoordinator,hvadapter,hvreserve,hvweth,
    w.adapter,hadapter,havault,haregistry,
    w.coordinator,hcoordinator,hcvault,hcmanager,hcoperator,hcpublisher,
    _,howner,rfl,w.router,hrouter,hradapter,hrrecipient,hrbps,
    w.uniswap,huniswap,w.uniswap_eq.2.1,hbasket⟩

theorem deployAndVerify_succeeds (hvalid : validate chain c true = .ok ())
    (hdeployer : c.deployer = this) (hnonce : c.startNonce = chain.nonce)
    (hfresh : Fresh computeCreateAddress this chain)
    (hc : Complete c (predict computeCreateAddress this chain.nonce)) :
    ∃ r, deployAndVerify computeCreateAddress this chain c = .ok r := by
  have hv := validate_ok hvalid
  obtain ⟨token,htoken⟩ := newBPSToken_succeeds_iff.2 hv.recipient_ne_zero
  let w := Wiring.of_complete hv hfresh hc
  have s₀ : Stage computeCreateAddress this chain
      (fun i x => (w.contracts token)[i]? = some x) 0 chain := Stage.init
  have hp : assertPredictions (predict computeCreateAddress this chain.nonce)
      (predict computeCreateAddress this chain.nonce) = .ok () := by
    simp [assertPredictions,assertPrediction,bind_eq_ok]
  rw [deployAndVerify,hvalid,ok_bind,revertIf_of_not (not_not.2 hdeployer),ok_bind]
  dsimp only
  rw [revertIf_of_not (not_not.2 hnonce.symm),ok_bind]
  refine s₀.bind_succeeds hfresh (by decide) rfl (fun _ => htoken) fun chain₁ s₁ => ?_
  refine s₁.bind_succeeds hfresh (by decide) rfl (fun _ => ?_) fun chain₂ s₂ => ?_
  · exact newBPSLockingVault_eq_ok.2 ⟨hv.owner_ne_zero,hfresh.nonzero 0 (by decide),rfl⟩
  refine s₂.bind_succeeds hfresh (by decide) rfl (fun _ => ?_) fun chain₃ s₃ => ?_
  · exact newDistributionClaimManager_eq_ok.2
      ⟨hfresh.nonzero 4 (by decide),hv.recovery_ne_zero,rfl⟩
  refine s₃.bind_succeeds hfresh (by decide) rfl (fun _ => ?_) fun chain₄ s₄ => ?_
  · refine map_eq_ok.2 ⟨w.adapter,newRialtoStockAcquisitionAdapter_eq_ok.2 ⟨⟨?_,?_,?_⟩,
      w.adapter_eq⟩,rfl⟩
    · exact s₃.chainId.trans hv.chainId
    · exact s₃.has_code hfresh (by decide) hv.weth_code
    · exact s₃.has_code hfresh (by decide) hv.registry_code
  refine s₄.bind_succeeds hfresh (by decide) rfl (fun hfree => ?_) fun chain₅ s₅ => ?_
  · exact map_eq_ok.2 ⟨w.coordinator,newDistributionFundingCoordinator_eq_ok.2
      ⟨s₄.built_code (by decide),w.coordinator_eq⟩,rfl⟩
  refine s₅.bind_succeeds hfresh (by decide) rfl (fun _ => ?_) fun chain₆ s₆ => ?_
  · exact map_eq_ok.2 ⟨w.vault,newStockAcquisitionVault_eq_ok.2 w.vault_eq,rfl⟩
  refine s₆.bind_succeeds hfresh (by decide) rfl (fun _ => ?_) fun chain₇ s₇ => ?_
  · refine map_eq_ok.2 ⟨w.uniswap,newUniswapV3BPSSwapAdapter_eq_ok.2 ⟨⟨?_,?_,?_⟩,
      w.uniswap_eq⟩,rfl⟩
    · exact s₆.built_code (by decide)
    · exact s₆.has_code hfresh (by decide) hv.weth_code
    · exact s₆.has_code hfresh (by decide) hv.venue_code
  refine s₇.bind_succeeds hfresh (by decide) rfl (fun _ => ?_) fun chain₈ s₈ => ?_
  · exact map_eq_ok.2 ⟨w.router,newBPSTradeRouter_eq_ok.2 ⟨hv.owner_ne_zero,w.router_eq⟩,rfl⟩
  exact ⟨_,bind_eq_ok.2 ⟨(),hp,bind_eq_ok.2 ⟨(),w.assertImmutables_ok s₈,rfl⟩⟩⟩

/-- A validated plan goes through, at the predicted addresses, exactly where it is complete. -/
theorem deployAndVerify_succeeds_iff (hvalid : validate chain c true = .ok ())
    (hdeployer : c.deployer = this) (hnonce : c.startNonce = chain.nonce)
    (hfresh : Fresh computeCreateAddress this chain) :
    (∃ chain', deployAndVerify computeCreateAddress this chain c =
        .ok (predict computeCreateAddress this chain.nonce,chain')) ↔
      Complete c (predict computeCreateAddress this chain.nonce) := by
  constructor
  · rintro ⟨chain',h⟩
    exact (deployAndVerify_complete hfresh h).2
  · intro hc
    obtain ⟨⟨d,chain'⟩,h⟩ := deployAndVerify_succeeds hvalid hdeployer hnonce hfresh hc
    have hd : d = predict computeCreateAddress this chain.nonce :=
      (deployAndVerify_complete hfresh h).1
    exact ⟨chain',hd ▸ h⟩

/-! A chain with the three external contracts, the feature router and two stock tokens. -/

def exampleChain : Chain where
  chainId := 4663
  code a := if a ∈ [10,11,12,13,20,21] then some .external else none
  ownerOf registry featureId := if registry = 11 ∧ featureId = 2 then some 13 else none
  nonce := 1

def exampleConfig (poolFee : ℕ) : DeployConfig where
  deployer := 500
  startNonce := 1
  weth := 10
  rialtoRegistry := 11
  swapRouter02 := 12
  poolFee := poolFee
  bpsRecipient := 600
  protocolOwner := 601
  reserveRecipient := 602
  acquisitionOperator := 603
  rootPublisher := 604
  claimRecoveryRecipient := 605
  stockBasket := [20,21]

def exampleAddress (_deployer : Address) (nonce : ℕ) : Address :=
  Fin.ofNat _ (1000+nonce)

theorem exampleConfig_valid (poolFee : ℕ) :
    validate exampleChain (exampleConfig poolFee) true = .ok () := by
  have h : validate exampleChain (exampleConfig 0) true = .ok () := by decide +kernel
  exact h

theorem exampleAddress_fresh : Fresh exampleAddress 500 exampleChain where
  injective := by decide +kernel
  nonzero := by decide +kernel
  empty := by
    have h : ∀ i < 8, (exampleChain.code (place exampleAddress 500 exampleChain i)).isNone := by
      decide +kernel
    exact fun i hi => Option.isNone_iff_eq_none.1 (h i hi)

theorem exampleConfig_deploys : ∃ chain', deployAndVerify exampleAddress 500 exampleChain
    (exampleConfig 3000) = .ok (predict exampleAddress 500 1,chain') :=
  (deployAndVerify_succeeds_iff (exampleConfig_valid 3000) rfl rfl exampleAddress_fresh).2
    { poolFee := by decide
      registry := by decide +kernel
      venue := by decide +kernel
      operator := by decide +kernel
      publisher := by decide +kernel
      reserve := by decide +kernel
      basket := by decide +kernel }

/-- Without a fee tier the plan is validated, and stops at the swap adapter. -/
theorem zeroPoolFee_stops : validate exampleChain (exampleConfig 0) true = .ok () ∧
    ∀ r, deployAndVerify exampleAddress 500 exampleChain (exampleConfig 0) ≠ .ok r :=
  ⟨exampleConfig_valid 0,fun _ h => (deployAndVerify_complete exampleAddress_fresh h).2.poolFee rfl⟩

end BpsDeployment
end BpsProtocol
