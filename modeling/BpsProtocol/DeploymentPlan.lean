import BpsProtocol.Constructors

/-! `BPSDeployment`: the deployment plan and its validation.
The contracts refer to one another by predicted addresses, and they are created one after the
other.  The validation looks at the roles one by one; it does not look at the fee tier, at the
predicted addresses, or at what the constructors compare beyond it. -/
namespace BpsProtocol
namespace BpsDeployment

open Checked Erc20

def NATIVE_SENTINEL : Address := 0xEeeeeEeeeEeEeeEeEeEeeEEEeeeeEeeeeeeeEEeE

structure DeployConfig where
  deployer : Address
  startNonce : ℕ
  weth : Address
  rialtoRegistry : Address
  swapRouter02 : Address
  poolFee : ℕ
  bpsRecipient : Address
  protocolOwner : Address
  reserveRecipient : Address
  acquisitionOperator : Address
  rootPublisher : Address
  claimRecoveryRecipient : Address
  stockBasket : List Address

structure Deployed where
  bpsToken : Address
  lockingVault : Address
  claimManager : Address
  rialtoAdapter : Address
  coordinator : Address
  stockVault : Address
  uniswapAdapter : Address
  tradeRouter : Address
  deriving DecidableEq

inductive Error
  | wrongChain (chainId : ℕ)
  | zeroConfigAddress (field : String)
  | placeholderAddress (field : String)
  | externalHasNoCode (field : String) (target : Address)
  | roleAliasesSystem (field : String) (target : Address)
  | emptyBasket
  | basketEntryZero (index : ℕ)
  | basketEntryNoCode (index : ℕ) (token : Address)
  | basketDuplicate (index : ℕ) (token : Address)
  | basketAliasesWeth (index : ℕ)
  | nonceMismatch (expected actual : ℕ)
  | predictionMismatch (what : String) (predicted actual : Address)
  | immutableMismatch (what : String)
  | construction (e : ConstructorError)
  | createCollision (target : Address)
  | noSuchCall (target : Address)
  deriving DecidableEq

/-! ## The validation -/

section Validation

variable (chain : Chain) (c : DeployConfig)

def requireAddr (a : Address) (field : String) : Except Error Unit := do
  revertIf (a = 0) (.zeroConfigAddress field)
  revertIf (a ∈ [1,0xdEaD,NATIVE_SENTINEL,0x1111111111111111111111111111111111111111])
    (.placeholderAddress field)

def requireNotSystem (a : Address) (field : String) : Except Error Unit :=
  revertIf (a = c.weth ∨ a = c.rialtoRegistry ∨ a = c.swapRouter02) (.roleAliasesSystem field a)

/-- The loop over the basket from index `i` on, behind the entries `before`. -/
def validateBasket (requireCode : Bool) :
    (i : ℕ) → (before basket : List Address) → Except Error Unit
  | _, _, [] => .ok ()
  | i, before, t::basket => do
    revertIf (t = 0 ∨ t = NATIVE_SENTINEL) (.basketEntryZero i)
    revertIf (t = c.weth) (.basketAliasesWeth i)
    revertIf (requireCode = true ∧ (chain.code t).isNone = true) (.basketEntryNoCode i t)
    revertIf (t ∈ before) (.basketDuplicate i t)
    validateBasket requireCode (i+1) (before ++ [t]) basket

/-- The checks of the chain, made where code is required. -/
def validateExternals : Except Error Unit := do
  revertIf ((chain.code c.weth).isNone = true) (.externalHasNoCode "weth" c.weth)
  revertIf ((chain.code c.rialtoRegistry).isNone = true)
    (.externalHasNoCode "rialtoRegistry" c.rialtoRegistry)
  revertIf ((chain.code c.swapRouter02).isNone = true)
    (.externalHasNoCode "swapRouter02" c.swapRouter02)
  let router ← orRevert (.noSuchCall c.rialtoRegistry) (chain.ownerOf c.rialtoRegistry 2)
  revertIf (router = 0 ∨ (chain.code router).isNone = true)
    (.externalHasNoCode "feature2Router" router)

def validate (requireCode : Bool) : Except Error Unit := do
  revertIf (chain.chainId ≠ ROBINHOOD_CHAIN_ID) (.wrongChain chain.chainId)
  requireAddr c.deployer "deployer"
  requireAddr c.weth "weth"
  requireAddr c.rialtoRegistry "rialtoRegistry"
  requireAddr c.swapRouter02 "swapRouter02"
  requireAddr c.bpsRecipient "bpsRecipient"
  requireAddr c.protocolOwner "protocolOwner"
  requireAddr c.reserveRecipient "reserveRecipient"
  requireAddr c.acquisitionOperator "acquisitionOperator"
  requireAddr c.rootPublisher "rootPublisher"
  requireAddr c.claimRecoveryRecipient "claimRecoveryRecipient"
  if requireCode then validateExternals chain c else pure ()
  requireNotSystem c c.reserveRecipient "reserveRecipient"
  requireNotSystem c c.acquisitionOperator "acquisitionOperator"
  requireNotSystem c c.rootPublisher "rootPublisher"
  requireNotSystem c c.protocolOwner "protocolOwner"
  requireNotSystem c c.bpsRecipient "bpsRecipient"
  requireNotSystem c c.claimRecoveryRecipient "claimRecoveryRecipient"
  revertIf (c.stockBasket = []) .emptyBasket
  validateBasket chain c requireCode 0 [] c.stockBasket

end Validation

/-! ## The deployment -/

section Deployment

variable (computeCreateAddress : (deployer : Address) → (nonce : ℕ) → Address)

def predict (deployer : Address) (n0 : ℕ) : Deployed where
  bpsToken := computeCreateAddress deployer (n0+0)
  lockingVault := computeCreateAddress deployer (n0+1)
  claimManager := computeCreateAddress deployer (n0+2)
  rialtoAdapter := computeCreateAddress deployer (n0+3)
  coordinator := computeCreateAddress deployer (n0+4)
  stockVault := computeCreateAddress deployer (n0+5)
  uniswapAdapter := computeCreateAddress deployer (n0+6)
  tradeRouter := computeCreateAddress deployer (n0+7)

/-- The chain with a new contract. -/
def Chain.add (chain : Chain) (here : Address) (contract : Contract) : Chain :=
  { chain with
    code := Function.update chain.code here (some contract)
    nonce := chain.nonce+1 }

/-- `new`: the next address of the creator, its nonce moved on, unless the address is taken or
the constructor reverts. -/
def create (creator : Address) (chain : Chain)
    (construct : (here : Address) → chain.code here = none → Except ConstructorError Contract) :
    Except Error (Address × Chain) :=
  let here := computeCreateAddress creator chain.nonce
  if hfresh : chain.code here = none then do
    let contract ← (construct here hfresh).mapError .construction
    return (here,chain.add here contract)
  else .error (.createCollision here)

def assertPrediction (what : String) (predicted actual : Address) : Except Error Unit :=
  revertIf (predicted ≠ actual) (.predictionMismatch what predicted actual)

def assertPredictions (p d : Deployed) : Except Error Unit := do
  assertPrediction "bpsToken" p.bpsToken d.bpsToken
  assertPrediction "lockingVault" p.lockingVault d.lockingVault
  assertPrediction "claimManager" p.claimManager d.claimManager
  assertPrediction "rialtoAdapter" p.rialtoAdapter d.rialtoAdapter
  assertPrediction "coordinator" p.coordinator d.coordinator
  assertPrediction "stockVault" p.stockVault d.stockVault
  assertPrediction "uniswapAdapter" p.uniswapAdapter d.uniswapAdapter
  assertPrediction "tradeRouter" p.tradeRouter d.tradeRouter

/-- The configuration that the views of a vault give. -/
def stockVaultAt (chain : Chain) (a : Address) : Except Error StockVault.Deployment :=
  match chain.code a with
  | some (.stockVault d) => .ok d
  | _ => .error (.noSuchCall a)

def rialtoAdapterAt (chain : Chain) (a : Address) : Except Error RialtoAdapter.Deployment :=
  match chain.code a with
  | some (.rialtoAdapter d) => .ok d
  | _ => .error (.noSuchCall a)

def coordinatorAt (chain : Chain) (a : Address) : Except Error Coordinator.Deployment :=
  match chain.code a with
  | some (.coordinator d) => .ok d
  | _ => .error (.noSuchCall a)

def managerOwnerAt (chain : Chain) (a : Address) : Except Error Address :=
  match chain.code a with
  | some (.claimManager owner _) => .ok owner
  | _ => .error (.noSuchCall a)

def tradeRouterAt (chain : Chain) (a : Address) : Except Error TradeRouter.Deployment :=
  match chain.code a with
  | some (.tradeRouter _ d) => .ok d
  | _ => .error (.noSuchCall a)

def uniswapAdapterAt (chain : Chain) (a : Address) : Except Error UniswapAdapter.Deployment :=
  match chain.code a with
  | some (.uniswapAdapter d) => .ok d
  | _ => .error (.noSuchCall a)

def assertImmutable (what : String) (actual expected : Address) : Except Error Unit :=
  revertIf (actual ≠ expected) (.immutableMismatch what)

def assertImmutables (chain : Chain) (c : DeployConfig) (d : Deployed) : Except Error Unit := do
  let vault ← stockVaultAt chain d.stockVault
  assertImmutable "vault.executor" vault.acquisitionExecutor d.coordinator
  assertImmutable "vault.coordinator" vault.distributionFundingCoordinator d.coordinator
  assertImmutable "vault.adapter" vault.acquisitionAdapter d.rialtoAdapter
  assertImmutable "vault.reserve" vault.reserveRecipient c.reserveRecipient
  assertImmutable "vault.weth" vault.weth c.weth
  let rialto ← rialtoAdapterAt chain d.rialtoAdapter
  assertImmutable "rialto.vault" rialto.stockAcquisitionVault d.stockVault
  assertImmutable "rialto.registry" rialto.routerRegistry c.rialtoRegistry
  let coord ← coordinatorAt chain d.coordinator
  assertImmutable "coord.vault" coord.stockAcquisitionVault d.stockVault
  assertImmutable "coord.manager" coord.distributionClaimManager d.claimManager
  assertImmutable "coord.operator" coord.acquisitionOperator c.acquisitionOperator
  assertImmutable "coord.publisher" coord.rootPublisher c.rootPublisher
  let owner ← managerOwnerAt chain d.claimManager
  assertImmutable "manager.owner" owner d.coordinator
  let router ← tradeRouterAt chain d.tradeRouter
  assertImmutable "router.adapter" router.swapAdapter d.uniswapAdapter
  assertImmutable "router.stockRecipient" router.stockBudgetRecipient d.stockVault
  assertImmutable "router.bps" router.bpsToken d.bpsToken
  let uni ← uniswapAdapterAt chain d.uniswapAdapter
  assertImmutable "uni.router" uni.bpsTradeRouter d.tradeRouter
  c.stockBasket.forM fun token =>
    revertIf (vault.isApprovedStockToken token = false) (.immutableMismatch "vault.approvedStock")

/-- The deployment from the contract at `this`. -/
def deployAndVerify (this : Address) (chain : Chain) (c : DeployConfig) :
    Except Error (Deployed × Chain) := do
  validate chain c true
  revertIf (c.deployer ≠ this) (.predictionMismatch "deployer" c.deployer this)
  let n0 := chain.nonce
  revertIf (n0 ≠ c.startNonce) (.nonceMismatch c.startNonce n0)
  let p := predict computeCreateAddress this n0
  let (bps,chain) ← create computeCreateAddress this chain fun _ _ => newBPSToken c.bpsRecipient
  let (locking,chain) ← create computeCreateAddress this chain fun _ _ =>
    newBPSLockingVault bps c.protocolOwner
  let (manager,chain) ← create computeCreateAddress this chain fun _ _ =>
    newDistributionClaimManager p.coordinator c.claimRecoveryRecipient
  let (rialto,chain) ← create computeCreateAddress this chain fun here _ =>
    Contract.rialtoAdapter <$>
      newRialtoStockAcquisitionAdapter chain here p.stockVault c.weth c.rialtoRegistry
  let (coord,chain) ← create computeCreateAddress this chain fun here hfresh =>
    Contract.coordinator <$> newDistributionFundingCoordinator chain here hfresh p.stockVault
      manager c.acquisitionOperator c.rootPublisher
  let (vault,chain) ← create computeCreateAddress this chain fun here _ =>
    Contract.stockVault <$> newStockAcquisitionVault here c.weth rialto coord c.reserveRecipient
      coord c.stockBasket
  let (uni,chain) ← create computeCreateAddress this chain fun here _ =>
    Contract.uniswapAdapter <$> newUniswapV3BPSSwapAdapter chain here p.tradeRouter bps c.weth
      c.swapRouter02 c.poolFee
  let (router,chain) ← create computeCreateAddress this chain fun here _ =>
    Contract.tradeRouter c.protocolOwner <$>
      newBPSTradeRouter here c.protocolOwner bps c.weth uni vault
  let d : Deployed := {
    bpsToken := bps
    lockingVault := locking
    claimManager := manager
    rialtoAdapter := rialto
    coordinator := coord
    stockVault := vault
    uniswapAdapter := uni
    tradeRouter := router }
  assertPredictions p d
  assertImmutables chain c d
  return (d,chain)

end Deployment

end BpsDeployment
end BpsProtocol
