import BpsProtocol.CanaryOperator
import Mathlib.Data.List.Sort

/-! The reviewed authorization of an execution packet, and the binding of the operator to it.
`buildCanonical` reconstructs the canonical object from packet, policy and snapshot and
collects errors; `bindAndVerifyPacket` compares it with the packaged one under four digest
anchors and derives the runtime data.  Digests and dates are parameters. -/
namespace BpsProtocol
namespace Canary

/-- `if (c) err.push(text);` -/
def errIf (c : Prop) [Decidable c] (text : String) : List String := if c then [text] else []

@[simp] theorem errIf_eq_nil {c : Prop} [Decidable c] {text : String} : errIf c text = [] ↔ ¬c := by
  unfold errIf
  split <;> simp_all

/-- What the operator is given besides its inputs. -/
structure Env (Obj : Type) where
  keccak256 : Hash
  digestOf : Obj → Text
  dateParse : Text → Option ℕ
  signableHash : Step → Bytes32
  receiptPolls : ℕ
  hasPriceProvider : Bool

/-- `!!x && !!y && x.toLowerCase() === y.toLowerCase()` -/
def eqDigest (x y : Text) : Bool := x ≠ [] && y ≠ [] && toLowerCase x = toLowerCase y

def text (s : String) : Text := s.toList

def SCOPE : Text := text "BPSC-TEST canary only; Robinhood Chain mainnet; maximum all-inclusive exposure $130; individual Rabby approvals; canonical BPS production excluded."

/-! ## Inputs -/

structure RawTx where
  chainId : ℕ
  signer : Address
  nonce : ℕ
  target : Option Address
  value : ℕ
  dataOrInitCode : Bytes
  gasLimit : ℕ
  maxFeePerGas : ℕ
  maxPriorityFeePerGas : ℕ
  index : Option ℕ
  phase : Phase
  label : Text
  predictedCreationAddress : Option Address
  deriving DecidableEq

structure Infrastructure where
  weth : Address
  uniswapV3Factory : Address
  nonfungiblePositionManager : Address
  swapRouter02 : Address
  rialtoRegistry : Address
  nvdaStockToken : Address
  deriving DecidableEq

structure GasPolicy where
  maxFeePerGasWei : ℕ
  maxPriorityFeePerGasWei : ℕ
  limits : List (Text × ℕ)
  deriving DecidableEq

structure Caps where
  aggregateUsd : ℕ
  limits : List (Text × ℕ)
  deriving DecidableEq

structure Nonces where
  deployer : ℕ
  tester : ℕ
  deriving DecidableEq

structure Wallets where
  deployer : Address
  tester : Address
  deriving DecidableEq

structure BlockRef where
  number : ℕ
  hash : Bytes32
  timestamp : ℕ
  baseFeePerGasWei : ℕ
  deriving DecidableEq

structure LpUsage where
  token0 : Address
  token1 : Address
  sqrtPriceX96 : ℕ
  poolTickAfter : ℤ
  tickLower : ℤ
  tickUpper : ℤ
  amount0Used : ℕ
  amount1Used : ℕ
  amount0Min : ℕ
  amount1Min : ℕ
  poolLiquidityAfter : ℕ
  positionOwner : Address

structure Economics where
  feeTier : ℕ
  tickSpacing : ℕ

/-- The pool and mint expectations. -/
def LpUsage.expectation (lu : LpUsage) (e : Economics) : LpExpectation :=
  { token0 := lu.token0
    token1 := lu.token1
    feeTier := e.feeTier
    tickSpacing := e.tickSpacing
    sqrtPriceX96 := lu.sqrtPriceX96
    tick := lu.poolTickAfter
    tickLower := lu.tickLower
    tickUpper := lu.tickUpper
    amount0Used := lu.amount0Used
    amount1Used := lu.amount1Used
    amount0Min := lu.amount0Min
    amount1Min := lu.amount1Min
    poolLiquidityAfter := lu.poolLiquidityAfter
    positionOwner := lu.positionOwner }

structure Meta where
  chainId : ℕ
  canary : Bool
  production : Bool
  scope : Text
  maxAllInclusiveExposureUsd : ℕ
  executable : Bool
  generatedAtUtc : Text
  expiresAtUtc : Text
  validityWindowSeconds : ℕ
  wallets : Wallets
  startNonces : Nonces
  fork : BlockRef
  executionPacketDigest : Text
  reviewedAuthorizationDigest : Text
  maxFeePerGasWei : ℕ
  maxPriorityFeePerGasWei : ℕ
  pinnedBaseFeePerGasWei : ℕ

structure Packet where
  header : Meta
  safetyFlags : Flags
  inboundDeployerWeth : ℕ
  inboundTesterWeth : ℕ
  allInclusiveGasWei : ℕ
  aggregateWei : ℕ
  infrastructure : List Address
  poolAddress : Address
  canaryTokenSymbol : Text
  immediateTransactions : List RawTx
  delayedWithdrawalSubPacket : RawTx
  deployedRuntimeCodeHashes : Slot → Option Bytes32
  artifactRuntimeKeccak : Slot → Option Bytes32
  dirtyTrackedTree : Bool
  lpUsage : LpUsage
  buyAccounting : BuyExpectation
  sellAccounting : SellExpectation
  lockAndWithdraw : LockExpectation
  reviewedGas : GasPolicy
  reviewedCaps : Caps

structure Policy where
  chainId : ℕ
  canary : Bool
  production : Bool
  authorizationScope : Text
  executable : Bool
  maxAllInclusiveExposureUsd : ℕ
  caps : Caps
  wallets : Wallets
  infrastructure : Infrastructure
  economics : Economics
  gas : GasPolicy
  windowSeconds : ℕ
  expectedNonces : Nonces
  snapshot : BlockRef
  safetyFlags : Flags
  reviewedAuthorizationDigest : Text

structure Snapshot where
  pinnedBlock : BlockRef
  nonces : Nonces
  allPredictedAddressesEmpty : Bool
  weth : Dependency
  uniswapV3Factory : Dependency
  nonfungiblePositionManager : Dependency
  swapRouter02 : Dependency
  rialtoRegistry : Dependency
  nvdaStockToken : Dependency

/-- `externalCodeHashes` in the order of `DEP_NAMES`. -/
def Snapshot.externalCodeHashes (s : Snapshot) : List Dependency :=
  [s.weth,s.uniswapV3Factory,s.nonfungiblePositionManager,s.swapRouter02,s.rialtoRegistry,
    s.nvdaStockToken]

/-! ## The canonical object -/

structure CanonicalTx where
  index : ℕ
  phase : Phase
  label : Text
  postconditionType : PostconditionType
  chainId : ℕ
  signer : Address
  nonce : ℕ
  target : Option Address
  value : ℕ
  data : Bytes
  gasLimit : ℕ
  maxFeePerGas : ℕ
  maxPriorityFeePerGas : ℕ
  deriving DecidableEq

structure DeploymentLeaf where
  slot : Slot
  predictedAddress : Address
  runtimeCodeHash : Bytes32
  artifactRuntimeKeccak : Bytes32
  deriving DecidableEq

structure ExposureLeaf where
  totalPrincipalWei : ℕ
  totalMaxGasWei : ℕ
  aggregateWei : ℕ
  deriving DecidableEq

/-- The leaves that the binding checks or the runtime reads. -/
structure Canonical where
  chainId : ℕ
  flags : Flags
  maxAllInclusiveExposureUsd : ℕ
  expiresAtUtc : Text
  wallets : Wallets
  startNonces : Nonces
  block : BlockRef
  infrastructure : Infrastructure
  pool : Address
  canaryTokenSymbol : Text
  dependencies : List Dependency
  deployments : List DeploymentLeaf
  lp : LpExpectation
  buy : BuyExpectation
  sell : SellExpectation
  lock : LockExpectation
  immediate : List CanonicalTx
  delayed : CanonicalTx
  exposure : ExposureLeaf
  executionPacketDigest : Text
  deriving DecidableEq

/-- `postconditionType`, from the phase and the label alone. -/
def postconditionTypeOf (phase : Phase) (label : Text) : PostconditionType :=
  if phase = .aDeploy then .deploy
  else if text "approve" <:+: label then .approve
  else if label = text "factory.createPool" then .createPool
  else if label = text "pool.initialize" then .initializePool
  else if label = text "NPM.mint" then .mint
  else if label = text "buyExactWethForBps" then .buy
  else if label = text "sellExactBpsForWeth" then .sell
  else if label = text "createLock(amount,7d)" then .lock
  else .unknown

/-- `sig` of the transaction at place `i`. -/
def RawTx.canonical (t : RawTx) (i : ℕ) : CanonicalTx :=
  { index := t.index.getD i
    phase := t.phase
    label := t.label
    postconditionType := postconditionTypeOf t.phase t.label
    chainId := t.chainId
    signer := t.signer
    nonce := t.nonce
    target := t.target
    value := t.value
    data := t.dataOrInitCode
    gasLimit := t.gasLimit
    maxFeePerGas := t.maxFeePerGas
    maxPriorityFeePerGas := t.maxPriorityFeePerGas }

/-- `DEPLOY_SLOTS` -/
def deploySlots : List Slot :=
  [.canaryToken,.lockingVault,.claimManager,.rialtoAdapter,.coordinator,.stockVault,
    .uniswapAdapter,.tradeRouter]

namespace Packet

variable (a : Packet)

/-- The deploy transactions in the order of their nonces. -/
def deploys : List RawTx :=
  (a.immediateTransactions.filter fun t => t.phase = .aDeploy).insertionSort
    fun x y => x.nonce ≤ y.nonce

def deployErrors (i : ℕ) (t : RawTx) : List String :=
  errIf (t.predictedCreationAddress = none) "non-address predicted" ++
    errIf ((deploySlots[i]?.bind a.deployedRuntimeCodeHashes) = none) "bad-hash runtimeHash" ++
    errIf ((deploySlots[i]?.bind a.artifactRuntimeKeccak) = none) "bad-hash artHash"

def deploymentAt (i : ℕ) (t : RawTx) : Option DeploymentLeaf := do
  let slot ← deploySlots[i]?
  let predicted ← t.predictedCreationAddress
  let runtime ← a.deployedRuntimeCodeHashes slot
  let artifact ← a.artifactRuntimeKeccak slot
  return ⟨slot,predicted,runtime,artifact⟩

def totalPrincipalWei : ℕ := a.inboundDeployerWeth + a.inboundTesterWeth

end Packet

def Flags.all (f : Flags) : Bool :=
  f.broadcastReady && f.liveWritesApproved && f.executionAuthorized && f.fundingAuthorized

/-- The errors of the leaves that authorize the packet. -/
def authorizationErrors (a : Packet) (p : Policy) : List String :=
  errIf (a.header.canary = false) "expected-true canary" ++
    errIf (p.canary = false) "expected-true policy.canary" ++
    errIf (a.header.production = true) "expected-false production" ++
    errIf (p.production = true) "expected-false policy.production" ++
    errIf (a.header.chainId ≠ 4663 ∨ p.chainId ≠ 4663) "chainId!=4663" ++
    errIf (a.header.scope ≠ SCOPE ∨ p.authorizationScope ≠ SCOPE) "scope" ++
    errIf (a.safetyFlags.all = false) "expected-true flag" ++
    errIf (p.safetyFlags.all = false) "expected-true pflag" ++
    errIf (a.header.executable = false) "expected-true executable" ++
    errIf (p.executable = false) "expected-true policy.executable" ++
    errIf (a.header.maxAllInclusiveExposureUsd ≠ 130 ∨ p.caps.aggregateUsd ≠ 130 ∨
      p.maxAllInclusiveExposureUsd ≠ 130) "cap!=130"

/-- The errors of `buildCanonical` on well-typed inputs. -/
def buildErrors (a : Packet) (p : Policy) (s : Snapshot) : List String :=
  a.immediateTransactions.flatMap (fun t =>
      errIf (postconditionTypeOf t.phase t.label = .unknown)
        ("tx.postconditionType unknown: " ++ String.ofList t.label)) ++
    errIf (a.totalPrincipalWei + a.allInclusiveGasWei ≠ a.aggregateWei)
      "exposure identity: principal+gas != aggregate" ++
    (a.deploys.mapIdx a.deployErrors).flatten ++
    authorizationErrors a p ++
    errIf (a.header.validityWindowSeconds ≠ p.windowSeconds) "validity" ++
    errIf (a.header.wallets.deployer ≠ p.wallets.deployer) "deployer" ++
    errIf (a.header.wallets.tester ≠ p.wallets.tester) "tester" ++
    errIf (s.pinnedBlock.number ≠ a.header.fork.number) "block.num" ++
    errIf (s.pinnedBlock.hash ≠ a.header.fork.hash) "block.hash" ++
    errIf (s.pinnedBlock.timestamp ≠ a.header.fork.timestamp) "block.ts" ++
    errIf (s.pinnedBlock.baseFeePerGasWei ≠ a.header.fork.baseFeePerGasWei) "block.bf" ++
    errIf (s.nonces.deployer ≠ p.expectedNonces.deployer) "snn.d" ++
    errIf (s.nonces.tester ≠ p.expectedNonces.tester) "snn.t" ++
    errIf (a.canaryTokenSymbol ≠ text "BPSC-TEST") "bad-string symbol" ++
    errIf (s.allPredictedAddressesEmpty = false) "expected-true allEmpty" ++
    errIf (a.immediateTransactions.length ≠ 19) "txcount!=19" ++
    errIf (a.dirtyTrackedTree = true) "dirtyTree"

/-- The object of `buildCanonical`. -/
def canonicalObject (a : Packet) (p : Policy) (s : Snapshot) : Canonical :=
  { chainId := if a.header.chainId = 4663 ∧ p.chainId = 4663 then 4663 else 0
    flags := a.safetyFlags
    maxAllInclusiveExposureUsd :=
      if a.header.maxAllInclusiveExposureUsd = 130 ∧ p.caps.aggregateUsd = 130 ∧
        p.maxAllInclusiveExposureUsd = 130 then 130 else 0
    expiresAtUtc := a.header.expiresAtUtc
    wallets := a.header.wallets
    startNonces := a.header.startNonces
    block := s.pinnedBlock
    infrastructure := p.infrastructure
    pool := a.poolAddress
    canaryTokenSymbol := a.canaryTokenSymbol
    dependencies := s.externalCodeHashes
    deployments := (a.deploys.mapIdx a.deploymentAt).filterMap id
    lp := a.lpUsage.expectation p.economics
    buy := a.buyAccounting
    sell := a.sellAccounting
    lock := a.lockAndWithdraw
    immediate := a.immediateTransactions.mapIdx fun i t => t.canonical i
    delayed := a.delayedWithdrawalSubPacket.canonical 0
    exposure := ⟨a.totalPrincipalWei,a.allInclusiveGasWei,a.aggregateWei⟩
    executionPacketDigest := a.header.executionPacketDigest }

/-- `validateStrict` of a well-typed packaged object. -/
def validateStrict (c : Canonical) : List String :=
  errIf (c.chainId ≠ 4663) "chainId" ++
    errIf (c.maxAllInclusiveExposureUsd ≠ 130) "cap!=130" ++
    errIf (c.canaryTokenSymbol ≠ text "BPSC-TEST") "canaryTokenSymbol" ++
    errIf (c.immediate.length ≠ 19) "tx count" ++
    errIf (¬ (c.immediate.map CanonicalTx.index).Nodup) "duplicate tx index" ++
    errIf (c.immediate.map CanonicalTx.index ≠ List.range c.immediate.length)
      "non-sequential/reordered tx index" ++
    c.immediate.flatMap fun t => errIf (t.chainId ≠ 4663) "tx.chainId"

/-! ## Binding -/

/-- The nonces of each wallet run on from its start. -/
def coverage (deployer : Address) : List RawTx → ℕ → ℕ → Bool
  | [], _, _ => true
  | t::ts, dnext, tnext =>
    if t.signer = deployer then t.nonce = dnext && coverage deployer ts (dnext+1) tnext
    else t.nonce = tnext && coverage deployer ts dnext (tnext+1)

/-- The inputs of the operator's constructor.  `noDuplicateKeys` is what the tokenizer finds
in the packaged text, `signablesDigest` the hash of the ordered signable transactions. -/
structure Inputs where
  packet : Packet
  policy : Policy
  snapshot : Snapshot
  packaged : Canonical
  noDuplicateKeys : Bool
  signablesDigest : List RawTx → Text

/-- The checks of `bindAndVerifyPacket`, each by its name. -/
def bindChecks (env : Env Canonical) (x : Inputs) : List (String × Bool) :=
  let a := x.packet
  let p := x.policy
  let s := x.snapshot
  let recon := canonicalObject a p s
  let digestR := env.digestOf recon
  let infra := a.infrastructure
  [("canonicalReconstructs",(buildErrors a p s).isEmpty),
    ("packagedReviewedAuthorizationValid",(validateStrict x.packaged).isEmpty),
    ("packagedNoDuplicateKeys",x.noDuplicateKeys),
    ("reviewedDigestAnchorsAgree",eqDigest digestR (env.digestOf x.packaged) &&
      eqDigest digestR a.header.reviewedAuthorizationDigest &&
      eqDigest digestR p.reviewedAuthorizationDigest),
    ("reconMatchesPackaged",recon = x.packaged),
    ("execDigestMatches",toLowerCase (x.signablesDigest
      (a.immediateTransactions ++ [a.delayedWithdrawalSubPacket])) =
        toLowerCase a.header.executionPacketDigest),
    ("perIndexCoverage",coverage a.header.wallets.deployer a.immediateTransactions
      a.header.startNonces.deployer a.header.startNonces.tester),
    ("chainId4663",a.header.chainId = 4663 && p.chainId = 4663),
    ("canaryNotProduction",a.header.canary && !a.header.production && p.canary && !p.production),
    ("scopeExact",a.header.scope = SCOPE && p.authorizationScope = SCOPE),
    ("walletsConsistent",p.wallets = a.header.wallets),
    ("noncesConsistent",a.header.startNonces = s.nonces && p.expectedNonces = s.nonces),
    ("snapshotConsistent",s.pinnedBlock.number = p.snapshot.number &&
      s.pinnedBlock.hash = p.snapshot.hash && a.header.fork = p.snapshot &&
      s.pinnedBlock.baseFeePerGasWei = p.snapshot.baseFeePerGasWei),
    ("infraConsistent",[p.infrastructure.weth,p.infrastructure.uniswapV3Factory,
      p.infrastructure.nonfungiblePositionManager,p.infrastructure.swapRouter02,
      p.infrastructure.rialtoRegistry,a.poolAddress].all fun x => x ∈ infra),
    ("gasConsistent",a.reviewedGas = p.gas && a.header.maxFeePerGasWei = p.gas.maxFeePerGasWei &&
      a.header.maxPriorityFeePerGasWei = p.gas.maxPriorityFeePerGasWei &&
      a.header.pinnedBaseFeePerGasWei = p.snapshot.baseFeePerGasWei),
    ("capsConsistent",a.reviewedCaps = p.caps),
    ("validityConsistent",a.header.validityWindowSeconds = p.windowSeconds &&
      a.header.expiresAtUtc ≠ [] && a.header.generatedAtUtc ≠ []),
    ("flagsAuthorized",a.safetyFlags.all && p.safetyFlags.all),
    ("capIs130",recon.maxAllInclusiveExposureUsd = 130),
    ("dependencyHashesRecorded",s.externalCodeHashes.length = 6)]

namespace Canonical

variable (c : Canonical)

/-- A step without its deployment. -/
def step (t : CanonicalTx) : Step :=
  { index := t.index
    phase := t.phase
    label := t.label
    postconditionType := t.postconditionType
    signer := t.signer
    nonce := t.nonce
    target := t.target
    value := t.value
    dataOrInitCode := t.data
    gasLimit := t.gasLimit
    maxFeePerGas := t.maxFeePerGas
    maxPriorityFeePerGas := t.maxPriorityFeePerGas
    gasCeilings := none
    deployment := none }

/-- The deploy steps in the order of their nonces. -/
def deployOrder : List ℕ :=
  ((c.immediate.filter fun t => t.phase = .aDeploy).insertionSort
    fun x y => x.nonce ≤ y.nonce).map CanonicalTx.index

/-- What binding attaches to the deploy step of an index. -/
def deploymentOf (index : ℕ) : Option Deployment := do
  let slot ← deploySlots[c.deployOrder.idxOf index]?
  let leaf ← c.deployments.find? (·.slot = slot)
  return ⟨slot,leaf.predictedAddress,leaf.runtimeCodeHash⟩

def steps : List Step :=
  c.immediate.map fun t =>
    if t.phase = .aDeploy then { step t with deployment := c.deploymentOf t.index } else step t

/-- The single runtime data source after binding. -/
def runtime (env : Env Canonical) : Runtime :=
  { keccak256 := env.keccak256
    execDigest := c.executionPacketDigest
    steps := c.steps
    addr := fun slot => ((c.deployments.find? (·.slot = slot)).map (·.predictedAddress)).getD 0
    deployer := c.wallets.deployer
    tester := c.wallets.tester
    factory := c.infrastructure.uniswapV3Factory
    npm := c.infrastructure.nonfungiblePositionManager
    nvda := c.infrastructure.nvdaStockToken
    pool := c.pool
    canaryTokenSymbol := c.canaryTokenSymbol
    lp := c.lp
    buy := c.buy
    sell := c.sell
    lock := c.lock
    dependencies := c.dependencies
    expiresAtUtc := env.dateParse c.expiresAtUtc
    exposurePrincipalWei := c.exposure.totalPrincipalWei
    exposureGasWei := c.exposure.totalMaxGasWei
    capMicro := c.maxAllInclusiveExposureUsd*1000000
    authFlags := c.flags
    signableHash := env.signableHash
    receiptPolls := env.receiptPolls
    hasPriceProvider := env.hasPriceProvider }

end Canonical

/-- `bindAndVerifyPacket`: the runtime, or the names of the checks that failed. -/
def bindAndVerifyPacket (env : Env Canonical) (x : Inputs) : Except (List String) Runtime :=
  if (bindChecks env x).all Prod.snd then .ok (x.packaged.runtime env)
  else .error (Runtime.failedGates (bindChecks env x))

end Canary
end BpsProtocol
