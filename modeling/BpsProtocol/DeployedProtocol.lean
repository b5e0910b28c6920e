import BpsProtocol.Protocol

/-! The protocol that a deployment plan puts on the chain.
Where the plan goes through, the code at its addresses is the wired protocol: the immutables
that the contracts hold of one another agree, also where the plan does not read them back. -/
namespace BpsProtocol
namespace BpsDeployment

open Checked

/-- What the plan builds at its `i`-th address, as far as the contracts name one another. -/
def Wired (c : DeployConfig) (p : Deployed) : ℕ → Contract → Prop
  | 2, x => x = .claimManager p.coordinator c.claimRecoveryRecipient
  | 4, x => ∃ d, x = .coordinator d ∧ d.here = p.coordinator ∧
      d.stockAcquisitionVault = p.stockVault ∧ d.distributionClaimManager = p.claimManager
  | 5, x => ∃ d, x = .stockVault d ∧ d.here = p.stockVault ∧ d.weth = c.weth ∧
      d.acquisitionExecutor = p.coordinator ∧ d.distributionFundingCoordinator = p.coordinator
  | 6, x => ∃ d, x = .uniswapAdapter d ∧ d.here = p.uniswapAdapter ∧
      d.bpsTradeRouter = p.tradeRouter ∧ d.bps = p.bpsToken ∧ d.weth = c.weth
  | 7, x => ∃ d, x = .tradeRouter c.protocolOwner d ∧ d.here = p.tradeRouter ∧
      d.bpsToken = p.bpsToken ∧ d.weth = c.weth ∧ d.swapAdapter = p.uniswapAdapter ∧
      d.stockBudgetRecipient = p.stockVault
  | _, _ => True

variable {computeCreateAddress : (deployer : Address) → (nonce : ℕ) → Address}
  {this : Address} {chain chain' start : Chain} {c : DeployConfig} {r : Deployed × Chain}

/-- A creation that succeeds puts at the next address what its constructor built. -/
theorem Stage.of_construct {Built : ℕ → Contract → Prop} {k : ℕ} {a : Address}
    {construct : (here : Address) → chain.code here = none → Except ConstructorError Contract}
    (h : Stage computeCreateAddress this start Built k chain)
    (hfresh : Fresh computeCreateAddress this start) (hk : k < 8)
    (hc : create computeCreateAddress this chain construct = .ok (a,chain'))
    (hbuilt : ∀ hfree contract, construct (place computeCreateAddress this start k) hfree =
      .ok contract → Built k contract) :
    a = place computeCreateAddress this start k ∧
      Stage computeCreateAddress this start Built (k+1) chain' := by
  have hplace : computeCreateAddress this chain.nonce =
      place computeCreateAddress this start k := by
    rw [h.nonce,place]
  have hfree := h.free hfresh hk
  rw [← hplace] at hfree
  obtain ⟨contract,hcontract,heq⟩ := (create_eq_ok hfree).1 hc
  obtain ⟨rfl,rfl⟩ := Prod.mk.inj heq
  simp only [hplace] at hcontract ⊢
  exact ⟨trivial,h.next hfresh hk (hbuilt _ contract hcontract)⟩

theorem deployAndVerify_wired (hfresh : Fresh computeCreateAddress this chain)
    (h : deployAndVerify computeCreateAddress this chain c = .ok r) :
    r.1 = predict computeCreateAddress this chain.nonce ∧
      Stage computeCreateAddress this chain
        (Wired c (predict computeCreateAddress this chain.nonce)) 8 r.2 := by
  simp only [deployAndVerify,bind_eq_ok,revertIf_eq_ok,exists_const,pure_eq_ok] at h
  obtain ⟨_,-,-,-,⟨bps,chain₁⟩,h₁,⟨locking,chain₂⟩,h₂,⟨manager,chain₃⟩,h₃,⟨rialto,chain₄⟩,h₄,
    ⟨coord,chain₅⟩,h₅,⟨vault,chain₆⟩,h₆,⟨uni,chain₇⟩,h₇,⟨router,chain₈⟩,h₈,_,-,_,-,rfl⟩ := h
  have s₀ : Stage computeCreateAddress this chain
      (Wired c (predict computeCreateAddress this chain.nonce)) 0 chain := Stage.init
  obtain ⟨rfl,s₁⟩ := s₀.of_construct hfresh (by decide) h₁ fun _ _ _ => trivial
  obtain ⟨rfl,s₂⟩ := s₁.of_construct hfresh (by decide) h₂ fun _ _ _ => trivial
  obtain ⟨rfl,s₃⟩ := s₂.of_construct hfresh (by decide) h₃ fun _ _ hk =>
    (newDistributionClaimManager_eq_ok.1 hk).2.2.symm
  obtain ⟨rfl,s₄⟩ := s₃.of_construct hfresh (by decide) h₄ fun _ _ _ => trivial
  obtain ⟨rfl,s₅⟩ := s₄.of_construct hfresh (by decide) h₅ fun _ _ hk => by
    obtain ⟨d,hd,rfl⟩ := map_eq_ok.1 hk
    obtain ⟨-,hhere,hvault,hmanager,-⟩ := newDistributionFundingCoordinator_eq_ok.1 hd
    exact ⟨d,rfl,hhere,hvault,hmanager⟩
  obtain ⟨rfl,s₆⟩ := s₅.of_construct hfresh (by decide) h₆ fun _ _ hk => by
    obtain ⟨d,hd,rfl⟩ := map_eq_ok.1 hk
    obtain ⟨hhere,hweth,-,hexecutor,-,hcoordinator,-⟩ := newStockAcquisitionVault_eq_ok.1 hd
    exact ⟨d,rfl,hhere,hweth,hexecutor,hcoordinator⟩
  obtain ⟨rfl,s₇⟩ := s₆.of_construct hfresh (by decide) h₇ fun _ _ hk => by
    obtain ⟨d,hd,rfl⟩ := map_eq_ok.1 hk
    obtain ⟨-,hhere,hrouter,hbps,hweth,-⟩ := newUniswapV3BPSSwapAdapter_eq_ok.1 hd
    exact ⟨d,rfl,hhere,hrouter,hbps,hweth⟩
  obtain ⟨rfl,s₈⟩ := s₇.of_construct hfresh (by decide) h₈ fun _ _ hk => by
    obtain ⟨d,hd,rfl⟩ := map_eq_ok.1 hk
    exact ⟨d,rfl,(newBPSTradeRouter_eq_ok.1 hd).2⟩
  exact ⟨rfl,s₈⟩

/-- A plan that goes through from fresh addresses puts the protocol on the chain, as whose
swap adapter the deployed one serves; `manager` adds what its constructor does not take. -/
theorem deployAndVerify_protocol (hfresh : Fresh computeCreateAddress this chain)
    (h : deployAndVerify computeCreateAddress this chain c = .ok r)
    (manager : ClaimManager.Deployment) (hmanager : manager.here = r.1.claimManager) :
    ∃ (d : Protocol.Deployment) (a : UniswapAdapter.Deployment),
      d.system.manager = manager ∧
      r.2.code r.1.claimManager =
        some (.claimManager d.system.coordinator.here c.claimRecoveryRecipient) ∧
      r.2.code r.1.coordinator = some (.coordinator d.system.coordinator) ∧
      r.2.code r.1.stockVault = some (.stockVault d.system.vault) ∧
      r.2.code r.1.tradeRouter = some (.tradeRouter c.protocolOwner d.router) ∧
      r.2.code r.1.uniswapAdapter = some (.uniswapAdapter a) ∧
      a.here = d.router.swapAdapter ∧ a.bpsTradeRouter = d.router.here ∧
      a.bps = d.router.bpsToken ∧ a.weth = d.router.weth ∧
      a.here ∉ [0,d.system.coordinator.here,d.system.vault.here,d.system.manager.here] := by
  obtain ⟨hr,hstage⟩ := deployAndVerify_wired hfresh h
  rw [hr] at hmanager ⊢
  obtain ⟨_,rfl,hcm⟩ := hstage.built 2 (by decide)
  obtain ⟨_,⟨dc,rfl,hchere,hcvault,hcmanager⟩,hcc⟩ := hstage.built 4 (by decide)
  obtain ⟨_,⟨dv,rfl,hvhere,hvweth,hvexecutor,hvcoordinator⟩,hcv⟩ := hstage.built 5 (by decide)
  obtain ⟨_,⟨du,rfl,huhere,hurouter,hubps,huweth⟩,hcu⟩ := hstage.built 6 (by decide)
  obtain ⟨_,⟨dr,rfl,hrhere,hrbps,hrweth,hradapter,hrbudget⟩,hcr⟩ := hstage.built 7 (by decide)
  have hout : ∀ i, i < 8 → i ≠ 2 → i ≠ 4 → i ≠ 5 →
      place computeCreateAddress this chain i ∉ [0,dc.here,dv.here,manager.here] := by
    intro i hi h2 h4 h5
    rw [hchere,hvhere,hmanager]
    simp only [List.mem_cons,List.not_mem_nil,or_false,not_or]
    exact ⟨hfresh.nonzero i hi,hfresh.ne hi (by decide) h4,hfresh.ne hi (by decide) h5,
      hfresh.ne hi (by decide) h2⟩
  refine ⟨{
    system := {
      coordinator := dc
      vault := dv
      manager
      vault_here := hcvault.trans hvhere.symm
      manager_here := hcmanager.trans hmanager.symm
      executor := hvexecutor.trans hchere.symm
      releases_to := hvcoordinator.trans hchere.symm }
    router := dr
    weth := hrweth.trans hvweth.symm
    budget := hrbudget.trans hvhere.symm
    router_distinct := by
      rw [hrhere]
      exact hout 7 (by decide) (by decide) (by decide) (by decide) },du,rfl,?_,hcc,hcv,hcr,hcu,
    huhere.trans hradapter.symm,hurouter.trans hrhere.symm,hubps.trans hrbps.symm,
    huweth.trans hrweth.symm,?_⟩
  · rw [hchere]
    exact hcm
  · rw [huhere]
    exact hout 6 (by decide) (by decide) (by decide) (by decide)

/-- The example plan puts its trade router at the eighth address. -/
theorem exampleConfig_protocol : ∃ (r : Deployed × Chain) (d : Protocol.Deployment),
    deployAndVerify exampleAddress 500 exampleChain (exampleConfig 3000) = .ok r ∧
      r.2.code r.1.tradeRouter = some (.tradeRouter 601 d.router) ∧
      d.router.stockBudgetRecipient = d.system.vault.here := by
  obtain ⟨r,hr⟩ := deployAndVerify_succeeds (exampleConfig_valid 3000) rfl rfl
    exampleAddress_fresh
    { poolFee := by decide
      registry := by decide +kernel
      venue := by decide +kernel
      operator := by decide +kernel
      publisher := by decide +kernel
      reserve := by decide +kernel
      basket := by decide +kernel }
  obtain ⟨d,-,-,-,-,-,hrouter,-⟩ := deployAndVerify_protocol exampleAddress_fresh hr
    ⟨r.1.claimManager,1,MerkleProof.toyHash,7⟩ rfl
  exact ⟨r,d,hr,hrouter,d.budget⟩

end BpsDeployment
end BpsProtocol
