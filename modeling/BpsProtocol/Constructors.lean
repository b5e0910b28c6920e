import BpsProtocol.Coordinator
import BpsProtocol.RialtoAdapter
import BpsProtocol.UniswapAdapter

/-! The constructors of the eight contracts.
A constructor that does not revert leaves the immutable configuration behind, and its checks
are the fields of that configuration.  While it runs, the new contract has no code yet. -/
namespace BpsProtocol
namespace BpsDeployment

open Checked Erc20

def ROBINHOOD_CHAIN_ID : ℕ := 4663
def MAX_SUPPLY : ℕ := 1000000000*10^18

/-- What has code at an address. -/
inductive Contract
  | external
  | bpsToken (token : Token)
  | lockingVault (bpsToken owner : Address)
  | claimManager (owner recoveryRecipient : Address)
  | rialtoAdapter (d : RialtoAdapter.Deployment)
  | coordinator (d : Coordinator.Deployment)
  | stockVault (d : StockVault.Deployment)
  | uniswapAdapter (d : UniswapAdapter.Deployment)
  | tradeRouter (owner : Address) (d : TradeRouter.Deployment)

/-- The chain as the deploying contract sees it, with that contract's nonce. -/
structure Chain where
  chainId : ℕ
  code : Address → Option Contract
  ownerOf : (registry : Address) → (featureId : ℕ) → Option Address
  nonce : ℕ

inductive ConstructorError
  | token (e : Erc20.Error)
  | ownableInvalidOwner (owner : Address)
  | zeroAddress
  | invalidSystemAddress
  | invalidTokenPair
  | notAContract (target : Address)
  | wrongChain (chainId : ℕ)
  | zeroPoolFee
  | emptyBasket
  | duplicateStockToken (token : Address)
  deriving DecidableEq

variable (chain : Chain) (here : Address)

def newBPSToken (recipient : Address) : Except ConstructorError Contract := do
  let token ← (Token.empty.mint recipient MAX_SUPPLY).mapError .token
  return .bpsToken token

def newBPSLockingVault (bpsToken initialOwner : Address) : Except ConstructorError Contract := do
  revertIf (initialOwner = 0) (.ownableInvalidOwner 0)
  revertIf (bpsToken = 0) .zeroAddress
  return .lockingVault bpsToken initialOwner

def newDistributionClaimManager (initialOwner recoveryRecipient : Address) :
    Except ConstructorError Contract := do
  revertIf (initialOwner = 0) (.ownableInvalidOwner 0)
  revertIf (recoveryRecipient = 0) .zeroAddress
  return .claimManager initialOwner recoveryRecipient

def newRialtoStockAcquisitionAdapter (vault weth registry : Address) :
    Except ConstructorError RialtoAdapter.Deployment :=
  if chain.chainId ≠ ROBINHOOD_CHAIN_ID then .error (.wrongChain chain.chainId)
  else if hzero : 0 ∈ [vault,weth,registry] then .error .zeroAddress
  else if hdistinct : ¬[weth,vault,registry].Nodup then .error .invalidSystemAddress
  else if chain.code weth = none then .error (.notAContract weth)
  else if chain.code registry = none then .error (.notAContract registry)
  else .ok {
    here,weth
    stockAcquisitionVault := vault
    routerRegistry := registry
    nonzero := hzero
    distinct := not_not.1 hdistinct }

/-- `hfresh`: the new contract is not the manager, which has code. -/
def newDistributionFundingCoordinator (hfresh : chain.code here = none)
    (vault claimManager acquisitionOperator rootPublisher : Address) :
    Except ConstructorError Coordinator.Deployment :=
  if hzero : 0 ∈ [vault,claimManager,acquisitionOperator,rootPublisher] then .error .zeroAddress
  else if hdistinct : vault ∈ [claimManager,acquisitionOperator,rootPublisher] ∨
    claimManager ∈ [acquisitionOperator,rootPublisher] then .error .invalidSystemAddress
  else if hcode : chain.code claimManager = none then .error (.notAContract claimManager)
  else .ok {
    here,acquisitionOperator,rootPublisher
    stockAcquisitionVault := vault
    distributionClaimManager := claimManager
    nonzero := hzero
    vault_distinct := fun h => hdistinct (Or.inl h)
    manager_distinct := fun h => hdistinct (Or.inr h)
    manager_deployed := fun h => hcode (h ▸ hfresh) }

/-- The loop over the basket, with the tokens approved so far. -/
def approveAll (system : List Address) :
    (tokens approved : List Address) → Except ConstructorError (List Address)
  | [], approved => .ok approved
  | token::tokens, approved => do
    revertIf (token = 0) .zeroAddress
    revertIf (token ∈ system) .invalidSystemAddress
    revertIf (token ∈ approved) (.duplicateStockToken token)
    approveAll system tokens (approved ++ [token])

theorem approveAll_eq_ok {system tokens approved out : List Address} :
    approveAll system tokens approved = .ok out ↔ out = approved ++ tokens ∧
      (∀ token ∈ tokens, token ≠ 0 ∧ token ∉ system) ∧ tokens.Nodup ∧
      ∀ token ∈ tokens, token ∉ approved := by
  induction tokens generalizing approved with
  | nil => simp [approveAll,eq_comm]
  | cons token tokens ih =>
    simp only [approveAll,bind_eq_ok,revertIf_eq_ok,exists_const,ih,List.mem_append,
      List.mem_singleton,not_or,List.forall_mem_cons,List.nodup_cons,List.append_assoc,
      List.singleton_append]
    constructor
    · rintro ⟨hzero,hsystem,happroved,rfl,hall,hnodup,hfresh⟩
      exact ⟨rfl,⟨⟨hzero,hsystem⟩,hall⟩,⟨fun h => (hfresh token h).2 rfl,hnodup⟩,happroved,
        fun t ht => (hfresh t ht).1⟩
    · rintro ⟨rfl,⟨⟨hzero,hsystem⟩,hall⟩,⟨hnot,hnodup⟩,happroved,hfresh⟩
      exact ⟨hzero,hsystem,happroved,rfl,hall,hnodup,fun t ht =>
        ⟨hfresh t ht,fun h => hnot (h ▸ ht)⟩⟩

def newStockAcquisitionVault (weth acquisitionAdapter acquisitionExecutor reserveRecipient
    distributionFundingCoordinator : Address) (approvedStockTokens : List Address) :
    Except ConstructorError StockVault.Deployment :=
  if hzero : 0 ∈ [weth,acquisitionAdapter,acquisitionExecutor,reserveRecipient,
    distributionFundingCoordinator] then .error .zeroAddress
  else if hadapter : acquisitionAdapter ∈ [weth,here] then .error .invalidSystemAddress
  else if hreserve : reserveRecipient ∈ [here,acquisitionAdapter,weth] then
    .error .invalidSystemAddress
  else if hcoordinator : distributionFundingCoordinator ∈
    [here,acquisitionAdapter,weth,reserveRecipient] then .error .invalidSystemAddress
  else if hempty : approvedStockTokens = [] then .error .emptyBasket
  else match hloop : approveAll [weth,acquisitionAdapter,here,acquisitionExecutor,
    reserveRecipient,distributionFundingCoordinator] approvedStockTokens [] with
  | .error e => .error e
  | .ok _ => .ok {
    here,weth,acquisitionAdapter,acquisitionExecutor,reserveRecipient
    distributionFundingCoordinator,approvedStockTokens
    nonzero := hzero
    adapter_distinct := hadapter
    reserve_distinct := hreserve
    coordinator_distinct := hcoordinator
    basket_ne_nil := hempty
    basket_system := (approveAll_eq_ok.1 hloop).2.1
    basket_nodup := (approveAll_eq_ok.1 hloop).2.2.1 }

def newUniswapV3BPSSwapAdapter (bpsTradeRouter bps weth swapRouter02 : Address) (poolFee : ℕ) :
    Except ConstructorError UniswapAdapter.Deployment :=
  if hzero : 0 ∈ [bpsTradeRouter,bps,weth,swapRouter02] then .error .zeroAddress
  else if hpair : bps = weth then .error .invalidTokenPair
  else if hvenue : swapRouter02 ∈ [bps,weth,bpsTradeRouter] then .error .invalidSystemAddress
  else if hrouter : bpsTradeRouter ∈ [bps,weth] then .error .invalidSystemAddress
  else if hfee : poolFee = 0 then .error .zeroPoolFee
  else if chain.code bps = none then .error (.notAContract bps)
  else if chain.code weth = none then .error (.notAContract weth)
  else if chain.code swapRouter02 = none then .error (.notAContract swapRouter02)
  else .ok {
    here,bpsTradeRouter,bps,weth,swapRouter02,poolFee
    nonzero := hzero
    pair_distinct := hpair
    venue_distinct := hvenue
    router_distinct := hrouter
    poolFee_ne_zero := hfee }

def newBPSTradeRouter (initialOwner bps weth adapter stockRecipient : Address) :
    Except ConstructorError TradeRouter.Deployment :=
  if initialOwner = 0 then .error (.ownableInvalidOwner 0)
  else if hzero : 0 ∈ [bps,weth,adapter,stockRecipient] then .error .zeroAddress
  else if hpair : bps = weth then .error .invalidTokenPair
  else if hadapter : adapter ∈ [bps,weth] then .error .invalidSystemAddress
  else if hrecipient : stockRecipient ∈ [here,bps,weth,adapter] then
    .error .invalidSystemAddress
  else .ok {
    here,weth
    bpsToken := bps
    swapAdapter := adapter
    stockBudgetRecipient := stockRecipient
    nonzero := hzero
    pair_distinct := hpair
    adapter_distinct := hadapter
    recipient_distinct := hrecipient }

/-! ## When they succeed -/

section Success

variable {chain : Chain} {here : Address}

theorem newBPSToken_succeeds_iff {recipient : Address} :
    (∃ contract, newBPSToken recipient = .ok contract) ↔ recipient ≠ 0 := by
  simp only [newBPSToken,bind_eq_ok,mapError_eq_ok,pure_eq_ok]
  constructor
  · rintro ⟨contract,token,htoken,-⟩
    exact (Token.mint_ok htoken).1
  · intro h
    have hsmall : Token.empty.totalSupply+MAX_SUPPLY < wordBound := by
      norm_num [Token.empty,MAX_SUPPLY,wordBound]
    exact ⟨_,_,by rw [Token.mint,revertIf_of_not h,ok_bind,dif_pos hsmall],rfl⟩

theorem newBPSLockingVault_eq_ok {bpsToken initialOwner : Address} {contract : Contract} :
    newBPSLockingVault bpsToken initialOwner = .ok contract ↔
      initialOwner ≠ 0 ∧ bpsToken ≠ 0 ∧ .lockingVault bpsToken initialOwner = contract := by
  simp only [newBPSLockingVault,bind_eq_ok,revertIf_eq_ok,exists_const,pure_eq_ok]

theorem newDistributionClaimManager_eq_ok {initialOwner recoveryRecipient : Address}
    {contract : Contract} :
    newDistributionClaimManager initialOwner recoveryRecipient = .ok contract ↔
      initialOwner ≠ 0 ∧ recoveryRecipient ≠ 0 ∧
        .claimManager initialOwner recoveryRecipient = contract := by
  simp only [newDistributionClaimManager,bind_eq_ok,revertIf_eq_ok,exists_const,pure_eq_ok]

/-- The checks beyond the fields of the configuration, and its data. -/
theorem newRialtoStockAcquisitionAdapter_eq_ok {vault weth registry : Address}
    {d : RialtoAdapter.Deployment} :
    newRialtoStockAcquisitionAdapter chain here vault weth registry = .ok d ↔
      (chain.chainId = ROBINHOOD_CHAIN_ID ∧ chain.code weth ≠ none ∧ chain.code registry ≠ none) ∧
        d.here = here ∧ d.stockAcquisitionVault = vault ∧ d.weth = weth ∧
        d.routerRegistry = registry := by
  constructor
  · intro h
    unfold newRialtoStockAcquisitionAdapter at h
    split at h
    · cases h
    next hchain =>
    split at h
    · cases h
    split at h
    · cases h
    split at h
    · cases h
    next hweth =>
    split at h
    · cases h
    next hregistry =>
    cases h
    exact ⟨⟨not_not.1 hchain,hweth,hregistry⟩,rfl,rfl,rfl,rfl⟩
  · rintro ⟨⟨hchain,hweth,hregistry⟩,rfl,rfl,rfl,rfl⟩
    rw [newRialtoStockAcquisitionAdapter,if_neg (not_not.2 hchain),dif_neg d.nonzero,
      dif_neg (not_not.2 d.distinct),if_neg hweth,if_neg hregistry]

theorem newDistributionFundingCoordinator_eq_ok {hfresh : chain.code here = none}
    {vault claimManager acquisitionOperator rootPublisher : Address}
    {d : Coordinator.Deployment} :
    newDistributionFundingCoordinator chain here hfresh vault claimManager acquisitionOperator
        rootPublisher = .ok d ↔
      chain.code claimManager ≠ none ∧ d.here = here ∧ d.stockAcquisitionVault = vault ∧
        d.distributionClaimManager = claimManager ∧ d.acquisitionOperator = acquisitionOperator ∧
        d.rootPublisher = rootPublisher := by
  constructor
  · intro h
    unfold newDistributionFundingCoordinator at h
    split at h
    · cases h
    split at h
    · cases h
    split at h
    · cases h
    next hcode =>
    cases h
    exact ⟨hcode,rfl,rfl,rfl,rfl,rfl⟩
  · rintro ⟨hcode,rfl,rfl,rfl,rfl,rfl⟩
    rw [newDistributionFundingCoordinator,dif_neg d.nonzero,
      dif_neg (not_or.2 ⟨d.vault_distinct,d.manager_distinct⟩),dif_neg hcode]

theorem newStockAcquisitionVault_eq_ok {weth acquisitionAdapter acquisitionExecutor
    reserveRecipient distributionFundingCoordinator : Address} {approvedStockTokens : List Address}
    {d : StockVault.Deployment} :
    newStockAcquisitionVault here weth acquisitionAdapter acquisitionExecutor reserveRecipient
        distributionFundingCoordinator approvedStockTokens = .ok d ↔
      d.here = here ∧ d.weth = weth ∧ d.acquisitionAdapter = acquisitionAdapter ∧
        d.acquisitionExecutor = acquisitionExecutor ∧ d.reserveRecipient = reserveRecipient ∧
        d.distributionFundingCoordinator = distributionFundingCoordinator ∧
        d.approvedStockTokens = approvedStockTokens := by
  constructor
  · intro h
    unfold newStockAcquisitionVault at h
    split at h
    · cases h
    split at h
    · cases h
    split at h
    · cases h
    split at h
    · cases h
    split at h
    · cases h
    split at h
    · cases h
    cases h
    exact ⟨rfl,rfl,rfl,rfl,rfl,rfl,rfl⟩
  · rintro ⟨rfl,rfl,rfl,rfl,rfl,rfl,rfl⟩
    have hloop : approveAll [d.weth,d.acquisitionAdapter,d.here,d.acquisitionExecutor,
        d.reserveRecipient,d.distributionFundingCoordinator] d.approvedStockTokens [] =
        .ok ([] ++ d.approvedStockTokens) :=
      approveAll_eq_ok.2 ⟨rfl,d.basket_system,d.basket_nodup,fun _ _ => List.not_mem_nil⟩
    unfold newStockAcquisitionVault
    rw [dif_neg d.nonzero,dif_neg d.adapter_distinct,dif_neg d.reserve_distinct,
      dif_neg d.coordinator_distinct,dif_neg d.basket_ne_nil]
    split
    · next he =>
      rw [hloop] at he
      cases he
    · rfl

theorem newUniswapV3BPSSwapAdapter_eq_ok {bpsTradeRouter bps weth swapRouter02 : Address}
    {poolFee : ℕ} {d : UniswapAdapter.Deployment} :
    newUniswapV3BPSSwapAdapter chain here bpsTradeRouter bps weth swapRouter02 poolFee = .ok d ↔
      (chain.code bps ≠ none ∧ chain.code weth ≠ none ∧ chain.code swapRouter02 ≠ none) ∧
        d.here = here ∧ d.bpsTradeRouter = bpsTradeRouter ∧ d.bps = bps ∧ d.weth = weth ∧
        d.swapRouter02 = swapRouter02 ∧ d.poolFee = poolFee := by
  constructor
  · intro h
    unfold newUniswapV3BPSSwapAdapter at h
    split at h
    · cases h
    split at h
    · cases h
    split at h
    · cases h
    split at h
    · cases h
    split at h
    · cases h
    split at h
    · cases h
    next hbps =>
    split at h
    · cases h
    next hweth =>
    split at h
    · cases h
    next hrouter =>
    cases h
    exact ⟨⟨hbps,hweth,hrouter⟩,rfl,rfl,rfl,rfl,rfl,rfl⟩
  · rintro ⟨⟨hbps,hweth,hrouter⟩,rfl,rfl,rfl,rfl,rfl,rfl⟩
    rw [newUniswapV3BPSSwapAdapter,dif_neg d.nonzero,dif_neg d.pair_distinct,
      dif_neg d.venue_distinct,dif_neg d.router_distinct,dif_neg d.poolFee_ne_zero,if_neg hbps,
      if_neg hweth,if_neg hrouter]

theorem newBPSTradeRouter_eq_ok {initialOwner bps weth adapter stockRecipient : Address}
    {d : TradeRouter.Deployment} :
    newBPSTradeRouter here initialOwner bps weth adapter stockRecipient = .ok d ↔
      initialOwner ≠ 0 ∧ d.here = here ∧ d.bpsToken = bps ∧ d.weth = weth ∧
        d.swapAdapter = adapter ∧ d.stockBudgetRecipient = stockRecipient := by
  constructor
  · intro h
    unfold newBPSTradeRouter at h
    split at h
    · cases h
    next howner =>
    split at h
    · cases h
    split at h
    · cases h
    split at h
    · cases h
    split at h
    · cases h
    cases h
    exact ⟨howner,rfl,rfl,rfl,rfl,rfl⟩
  · rintro ⟨howner,rfl,rfl,rfl,rfl,rfl⟩
    rw [newBPSTradeRouter,if_neg howner,dif_neg d.nonzero,dif_neg d.pair_distinct,
      dif_neg d.adapter_distinct,dif_neg d.recipient_distinct]

end Success

end BpsDeployment
end BpsProtocol
