import BpsProtocol.CanaryBinding

/-! The authorization of a recovery packet, and the binding of the recovery operator to it.
The first thirteen steps are anchors that are on the chain already; six transactions of the
tester remain, each with ceilings on what the wallet may adjust. -/
namespace BpsProtocol
namespace Canary
namespace Recovery

def RECOVERY_SCOPE : Text := text "BPSC-TEST canary RECOVERY v9 (original steps 1-13 completed on chain; pure time refresh of the reviewed v8); Robinhood Chain mainnet; final SIX tester transactions only (original steps 14-19, tester nonces 2-7); per-step gas-cost ceiling exactly 1.25x reviewed (accepted); maximum all-inclusive exposure $130; individual Rabby approvals; canonical BPS production excluded."

def PRIORITY_CEILING_WEI : ℕ := 50000000

def OLD_DEADLINE : ℕ := 1784949999

/-! ## Inputs -/

structure Ceilings where
  gasLimitCeiling : ℕ
  maxFeeCeilingWei : ℕ
  maxPriorityCeilingWei : ℕ
  reviewedMaxGasCostWei : ℕ
  maxGasCostCeilingWei : ℕ
  deriving DecidableEq

structure RawTx where
  originalIndex : ℕ
  remainingIndex : ℕ
  phase : Phase
  label : Text
  chainId : ℕ
  signer : Address
  nonce : ℕ
  target : Option Address
  value : ℕ
  dataOrInitCode : Bytes
  gasLimit : ℕ
  maxFeePerGas : ℕ
  maxPriorityFeePerGas : ℕ
  gasCeilings : Ceilings

/-- A completed step and its transaction on the chain. -/
structure Anchor where
  originalIndex : ℕ
  label : Text
  txHash : Bytes32
  signer : Address
  nonce : ℕ
  createdAddress : Option Address
  inputKeccak : Bytes32
  actualGasCostWei : ℕ
  deployedRuntimeCodeHash : Option Bytes32
  deriving DecidableEq

structure RefreshStep where
  originalIndex : ℕ
  label : Text
  wordOffsetBytes : ℕ
  oldDataKeccak : Bytes32
  newDataKeccak : Bytes32
  deriving DecidableEq

structure DeadlineRefresh where
  oldDeadline : ℕ
  newDeadline : ℕ
  newDeadlineEqualsPacketExpiry : Bool
  steps : List RefreshStep
  deriving DecidableEq

structure GasPolicy where
  maxPriorityCeilingWei : ℕ
  maxFeeCeilingUnchanged : Bool
  gasLimitCeilingUnchanged : Bool
  deriving DecidableEq

/-- An earlier packet that this one renews. -/
structure Prior where
  zipSha256 : Text
  authorizationDigest : Bytes32
  deriving DecidableEq

structure Priors where
  v5 : Prior
  v6 : Prior
  v7 : Prior
  v8 : Prior
  deriving DecidableEq

structure Completed where
  address : Address
  runtimeCodeHash : Bytes32

structure Meta where
  chainId : ℕ
  canary : Bool
  production : Bool
  scope : Text
  maxAllInclusiveExposureUsd : ℕ
  executable : Bool
  expiresAtUtc : Text
  wallets : Wallets
  fork : BlockRef
  originalStepCount : ℕ
  priors : Priors
  gasPolicy : GasPolicy
  deadlineRefresh : DeadlineRefresh
  remainingExecutionDigest : Bytes32
  recoveryAuthorizationDigest : Text

structure Packet where
  header : Meta
  safetyFlags : Flags
  completedSteps : List Anchor
  remainingCount : ℕ
  allSignersTester : Bool
  immediateTransactions : List RawTx
  realizedGasWei : ℕ
  remainingPrincipalWei : ℕ
  remainingMaxGasWei : ℕ
  aggregateWei : ℕ
  positionTokenId : ℕ
  poolAddress : Address
  lpUsage : LpUsage
  buyAccounting : BuyExpectation
  sellAccounting : SellExpectation
  lockAndWithdraw : LockExpectation
  dirtyTrackedTree : Bool

structure Policy where
  chainId : ℕ
  canary : Bool
  production : Bool
  wallets : Wallets
  infrastructure : Infrastructure
  economics : Economics
  safetyFlags : Flags
  recoveryAuthorizationDigest : Text

structure Snapshot where
  pinnedBlock : BlockRef
  expectedNonces : Nonces
  completedContracts : Slot → Option Completed
  positionTokenId : ℕ
  positionLiquidity : ℕ
  externalCodeHashes : List Dependency

/-! ## The canonical object -/

structure CanonicalTx where
  originalIndex : ℕ
  remainingIndex : ℕ
  phase : Phase
  label : Text
  postconditionType : PostconditionType
  chainId : ℕ
  signer : Address
  nonce : ℕ
  target : Option Address
  value : ℕ
  data : Bytes
  gasLimit : ℕ
  maxFeePerGas : ℕ
  maxPriorityFeePerGas : ℕ
  gasCeilings : Ceilings
  deriving DecidableEq

structure CompletedLeaf where
  slot : Slot
  address : Address
  runtimeCodeHash : Bytes32
  deriving DecidableEq

structure ExposureLeaf where
  realizedGasWei : ℕ
  remainingPrincipalWei : ℕ
  remainingMaxGasWei : ℕ
  aggregateWei : ℕ
  deriving DecidableEq

/-- The leaves that the binding checks or the runtime reads. -/
structure Canonical where
  chainId : ℕ
  flags : Flags
  maxAllInclusiveExposureUsd : ℕ
  expiresAtUtc : Text
  wallets : Wallets
  priors : Priors
  gasPolicy : GasPolicy
  deadlineRefresh : DeadlineRefresh
  stepCount : ℕ
  deployerStepRange : Text
  completedSteps : List Anchor
  deployerExpectedNonce : ℕ
  testerExpectedNonce : ℕ
  block : BlockRef
  completedContracts : List CompletedLeaf
  positionTokenId : ℕ
  positionLiquidity : ℕ
  infrastructure : Infrastructure
  dependencies : List Dependency
  pool : Address
  canaryTokenSymbol : Text
  lp : LpExpectation
  buy : BuyExpectation
  sell : SellExpectation
  lock : LockExpectation
  count : ℕ
  immediate : List CanonicalTx
  exposure : ExposureLeaf
  remainingExecutionDigest : Bytes32
  deriving DecidableEq

/-- `ALL_SLOTS` -/
def allSlots : List Slot :=
  [.canaryToken,.lockingVault,.claimManager,.rialtoAdapter,.coordinator,.stockVault,
    .uniswapAdapter,.tradeRouter]

/-- ``BigInt("0x" + data.slice(…))`` of the deadline word, which throws on no digits. -/
def deadlineWord (data : Bytes) (offset : ℕ) : Option ℕ :=
  let word := (data.drop offset).take 32
  if word = [] then none else some (natOf word)

/-- `Math.floor(Date.parse(…) / 1000)` -/
def expiryEpoch (dateParse : Text → Option ℕ) (expiresAtUtc : Text) : Option ℕ :=
  (dateParse expiresAtUtc).map (·/1000)

namespace RawTx

/-- The errors of `sigStep`. -/
def errors (tester : Address) (t : RawTx) : List String :=
  let g := t.gasCeilings
  let reviewedCost := t.gasLimit*t.maxFeePerGas
  let label := String.ofList t.label
  errIf (postconditionTypeOf t.phase t.label = .unknown) ("pc unknown " ++ label) ++
    errIf (t.signer ≠ tester) ("signable signer is NOT the tester @ " ++ label) ++
    errIf (g.reviewedMaxGasCostWei ≠ reviewedCost) ("gc.reviewed != gasLimit*maxFee @ " ++ label) ++
    errIf (g.maxGasCostCeilingWei*4 ≠ reviewedCost*5)
      ("gc.cost != exactly 1.25x reviewed @ " ++ label) ++
    errIf (g.maxFeeCeilingWei ≠ t.maxFeePerGas) ("gc.maxFee ceiling changed @ " ++ label) ++
    errIf (g.maxPriorityCeilingWei ≠ PRIORITY_CEILING_WEI)
      ("gc.priority != exactly 50000000 @ " ++ label) ++
    errIf (g.gasLimitCeiling ≠ t.gasLimit*2) ("gc.gasLimit ceiling != 2x reviewed @ " ++ label)

/-- The object of `sigStep`. -/
def canonical (t : RawTx) : CanonicalTx :=
  { originalIndex := t.originalIndex
    remainingIndex := t.remainingIndex
    phase := t.phase
    label := t.label
    postconditionType := postconditionTypeOf t.phase t.label
    chainId := t.chainId
    signer := t.signer
    nonce := t.nonce
    target := t.target
    value := t.value
    data := t.dataOrInitCode
    gasLimit := t.gasLimit
    maxFeePerGas := t.maxFeePerGas
    maxPriorityFeePerGas := t.maxPriorityFeePerGas
    gasCeilings := t.gasCeilings }

end RawTx

/-- The errors of the anchor at place `i`. -/
def Anchor.errors (i : ℕ) (x : Anchor) : List String :=
  errIf (x.originalIndex ≠ i+1) s!"anchor originalIndex sequence @ {i}" ++
    errIf (x.nonce ≠ x.originalIndex+2) s!"anchor nonce != originalIndex+2 @ {x.originalIndex}"

/-- The steps `1` to `n` in order, all of one signer. -/
def completedRange (deployer : Address) (n : ℕ) (xs : List Anchor) : Bool :=
  xs.map Anchor.originalIndex = (List.range n).map (·+1) && xs.all fun x => x.signer = deployer

def realizedSum (xs : List Anchor) : ℕ := (xs.map Anchor.actualGasCostWei).sum

/-- The errors of a refreshed step: its transaction carries the new deadline. -/
def RefreshStep.errors (newDeadline : ℕ) (txs : List RawTx) (x : RefreshStep) : List String :=
  match txs.find? fun t => t.originalIndex = x.originalIndex with
  | none => [s!"dr step tx missing {x.originalIndex}"]
  | some tx =>
    match deadlineWord tx.dataOrInitCode x.wordOffsetBytes with
    | none => ["Cannot convert 0x to a BigInt"]
    | some word => errIf (word ≠ newDeadline)
        s!"dr: bound calldata word != new deadline @ step {x.originalIndex}"

/-- The errors of the completed steps and contracts. -/
def completedErrors (a : Packet) (p : Policy) (s : Snapshot) : List String :=
  errIf (a.completedSteps.length ≠ 13) "missing 13 completed anchors" ++
    (a.completedSteps.mapIdx Anchor.errors).flatten ++
    errIf (completedRange p.wallets.deployer 13 a.completedSteps = false)
      "completed deployer range != exactly 1-13" ++
    errIf (realizedSum a.completedSteps ≠ a.realizedGasWei)
      "realized gas identity: sum(anchors) != realizedGasWei" ++
    allSlots.flatMap fun slot =>
      errIf ((s.completedContracts slot).isNone) ("completed contract missing " ++ slot.name)

/-- The errors of the deadline refresh. -/
def deadlineErrors (dateParse : Text → Option ℕ) (a : Packet) (s : Snapshot) : List String :=
  let dr := a.header.deadlineRefresh
  errIf (dr.oldDeadline ≠ OLD_DEADLINE) "dr.oldDeadline != bound v8 deadline 1784949999" ++
    errIf (dr.newDeadline ≠ s.pinnedBlock.timestamp+21600)
      "dr.newDeadline != pinned ts + 21600" ++
    errIf (expiryEpoch dateParse a.header.expiresAtUtc ≠ some dr.newDeadline)
      "dr.newDeadline != packet expiry epoch" ++
    errIf (dr.steps.map RefreshStep.originalIndex ≠ [15,17]) "dr.steps != [15,17]" ++
    dr.steps.flatMap (RefreshStep.errors dr.newDeadline a.immediateTransactions) ++
    errIf (dr.newDeadlineEqualsPacketExpiry = false) "expected-true dr.eq"

/-- The errors of the leaves that authorize the packet. -/
def authorizationErrors (a : Packet) (p : Policy) : List String :=
  errIf (a.header.canary = false) "expected-true canary" ++
    errIf (p.canary = false) "expected-true pcanary" ++
    errIf (a.header.production = true) "expected-false prod" ++
    errIf (p.production = true) "expected-false pprod" ++
    errIf (a.header.chainId ≠ 4663 ∨ p.chainId ≠ 4663) "chain" ++
    errIf (a.header.scope ≠ RECOVERY_SCOPE) "scope" ++
    errIf (a.safetyFlags.all = false) "expected-true flag" ++
    errIf (p.safetyFlags.all = false) "expected-true pflag" ++
    errIf (a.header.executable = false) "expected-true exec" ++
    errIf (a.header.maxAllInclusiveExposureUsd ≠ 130) "cap" ++
    errIf (a.header.wallets.deployer ≠ p.wallets.deployer) "deployer" ++
    errIf (a.header.wallets.tester ≠ p.wallets.tester) "tester" ++
    errIf (a.header.gasPolicy.maxPriorityCeilingWei ≠ PRIORITY_CEILING_WEI) "gp.prio" ++
    errIf (a.header.gasPolicy.maxFeeCeilingUnchanged = false) "expected-true gp.mf" ++
    errIf (a.header.gasPolicy.gasLimitCeilingUnchanged = false) "expected-true gp.gl"

/-- The errors of the remaining plan against the snapshot. -/
def planErrors (a : Packet) (s : Snapshot) : List String :=
  errIf (a.header.originalStepCount ≠ 19) "osc" ++
    errIf (a.remainingCount ≠ 6) "rc" ++
    errIf (a.allSignersTester = false) "expected-true ast" ++
    errIf (s.expectedNonces.deployer ≠ 16) "rdn" ++
    errIf (s.expectedNonces.tester ≠ 2) "rtn" ++
    errIf (s.pinnedBlock.number ≠ a.header.fork.number) "b.n" ++
    errIf (s.pinnedBlock.hash ≠ a.header.fork.hash) "b.h" ++
    errIf (s.pinnedBlock.timestamp ≠ a.header.fork.timestamp) "b.t" ++
    errIf (s.pinnedBlock.baseFeePerGasWei ≠ a.header.fork.baseFeePerGasWei) "b.bf" ++
    errIf (a.positionTokenId ≠ s.positionTokenId) "positionTokenId" ++
    errIf (a.immediateTransactions.length ≠ 6) "txc"

/-- The errors of `buildRecoveryCanonical` on well-typed inputs. -/
def buildErrors (dateParse : Text → Option ℕ) (a : Packet) (p : Policy) (s : Snapshot) :
    List String :=
  completedErrors a p s ++ deadlineErrors dateParse a s ++
    errIf (a.realizedGasWei + a.remainingPrincipalWei + a.remainingMaxGasWei ≠ a.aggregateWei)
      "recovery exposure identity: realized+principal+maxgas != aggregate" ++
    authorizationErrors a p ++ planErrors a s ++
    a.immediateTransactions.flatMap (RawTx.errors p.wallets.tester) ++
    errIf (a.dirtyTrackedTree = true) "dirty"

/-- The object of `buildRecoveryCanonical`.  A leaf that fails its own check is replaced, and
the error is recorded above. -/
def canonicalObject (a : Packet) (p : Policy) (s : Snapshot) : Canonical :=
  { chainId := if a.header.chainId = 4663 ∧ p.chainId = 4663 then 4663 else 0
    flags := a.safetyFlags
    maxAllInclusiveExposureUsd := if a.header.maxAllInclusiveExposureUsd = 130 then 130 else 0
    expiresAtUtc := a.header.expiresAtUtc
    wallets := a.header.wallets
    priors := a.header.priors
    gasPolicy := a.header.gasPolicy
    deadlineRefresh := a.header.deadlineRefresh
    stepCount := if a.header.originalStepCount = 19 then 19 else 0
    deployerStepRange := text "1-13"
    completedSteps := a.completedSteps
    deployerExpectedNonce := if s.expectedNonces.deployer = 16 then 16 else 0
    testerExpectedNonce := if s.expectedNonces.tester = 2 then 2 else 0
    block := s.pinnedBlock
    completedContracts := allSlots.filterMap fun slot =>
      (s.completedContracts slot).map fun cc => ⟨slot,cc.address,cc.runtimeCodeHash⟩
    positionTokenId := if a.positionTokenId = s.positionTokenId then a.positionTokenId else 0
    positionLiquidity := s.positionLiquidity
    infrastructure := p.infrastructure
    dependencies := s.externalCodeHashes
    pool := a.poolAddress
    canaryTokenSymbol := text "BPSC-TEST"
    lp := a.lpUsage.expectation p.economics
    buy := a.buyAccounting
    sell := a.sellAccounting
    lock := a.lockAndWithdraw
    count := if a.immediateTransactions.length = 6 then 6 else 0
    immediate := a.immediateTransactions.map RawTx.canonical
    exposure :=
      ⟨a.realizedGasWei,a.remainingPrincipalWei,a.remainingMaxGasWei,a.aggregateWei⟩
    remainingExecutionDigest := a.header.remainingExecutionDigest }

/-- The gas fields of a packaged transaction. -/
def CanonicalTx.gasErrors (t : CanonicalTx) : List String :=
  let g := t.gasCeilings
  errIf (g.reviewedMaxGasCostWei ≠ t.gasLimit*t.maxFeePerGas)
      s!"gc.reviewed identity @ {t.originalIndex}" ++
    errIf (g.maxGasCostCeilingWei*4 ≠ g.reviewedMaxGasCostWei*5)
      s!"gc.1.25x identity @ {t.originalIndex}" ++
    errIf (g.maxFeeCeilingWei ≠ t.maxFeePerGas) s!"gc.maxFee unchanged @ {t.originalIndex}" ++
    errIf (g.maxPriorityCeilingWei ≠ PRIORITY_CEILING_WEI) s!"gc.priority @ {t.originalIndex}" ++
    errIf (g.gasLimitCeiling ≠ t.gasLimit*2) s!"gc.gasLimit 2x @ {t.originalIndex}"

/-- A refreshed step of a packaged object. -/
def RefreshStep.strictErrors (newDeadline : ℕ) (txs : List CanonicalTx) (x : RefreshStep) :
    List String :=
  match txs.find? fun t => t.originalIndex = x.originalIndex with
  | none => [s!"dr tx {x.originalIndex}"]
  | some tx =>
    match deadlineWord tx.data x.wordOffsetBytes with
    | none => ["Cannot convert 0x to a BigInt"]
    | some word => errIf (word ≠ newDeadline) s!"dr word @ {x.originalIndex}"

/-- `validateRecoveryStrict` of a well-typed packaged object. -/
def validateRecoveryStrict (dateParse : Text → Option ℕ) (c : Canonical) : List String :=
  let dr := c.deadlineRefresh
  errIf (c.chainId ≠ 4663) "chainId" ++
    errIf (c.maxAllInclusiveExposureUsd ≠ 130) "cap" ++
    errIf (c.completedSteps.length ≠ 13) "completedSteps != 13" ++
    (c.completedSteps.mapIdx fun i x =>
      errIf (x.originalIndex ≠ i+1) s!"anchor seq @ {i}" ++
        errIf (x.nonce ≠ x.originalIndex+2) s!"anchor nonce @ {x.originalIndex}").flatten ++
    errIf (c.completedContracts.length ≠ 8) "completedContracts != 8" ++
    errIf (c.deployerStepRange ≠ text "1-13") "deployerStepRange != 1-13" ++
    errIf (¬ c.completedSteps.all fun x => x.signer = c.wallets.deployer)
      "completed anchors not all deployer" ++
    errIf (c.gasPolicy.maxPriorityCeilingWei ≠ PRIORITY_CEILING_WEI) "gasPolicy.priority" ++
    errIf (dr.oldDeadline ≠ OLD_DEADLINE) "dr.old" ++
    errIf (expiryEpoch dateParse c.expiresAtUtc ≠ some dr.newDeadline) "dr.new != expiry" ++
    errIf (dr.steps.map RefreshStep.originalIndex ≠ [15,17]) "dr.steps" ++
    dr.steps.flatMap (RefreshStep.strictErrors dr.newDeadline c.immediate) ++
    errIf (c.count ≠ 6 ∨ c.immediate.length ≠ 6) "tx count" ++
    errIf (c.immediate.map CanonicalTx.originalIndex ≠ (List.range c.immediate.length).map (·+14))
      "original indices not 14..19" ++
    errIf (c.immediate.map CanonicalTx.nonce ≠ (List.range c.immediate.length).map (·+2))
      "tester nonces not 2..7" ++
    c.immediate.flatMap (fun t => errIf (t.signer ≠ c.wallets.tester)
      s!"non-tester signable @ {t.originalIndex}") ++
    errIf (c.immediate.any fun t => t.originalIndex ≤ 13)
      "completed step present in signables" ++
    c.immediate.flatMap fun t => errIf (t.chainId ≠ 4663) "tx.chainId" ++ t.gasErrors

/-! ## Binding -/

def V5_ZIP_SHA : Text := text "5a6246ca51bd3237e6d925153439d9040b1c3674c0e026e9d8f187e7a5e64b3b"
def V5_RAD_EXACT : Bytes32 := 0x4fdfd36b99d6090fef67f21bd3b2027e8dc7e339861ae94eb0f292da2b6ee248
def V6_ZIP_SHA : Text := text "fd57f5c1bcc4d296250bfb04cab096a4f56299b0deb2edefbf4824f9414fb356"
def V6_RAD : Bytes32 := 0xdca841943bc32b76df5a04310d30b70a4a9244dcc4d9445d8d42500fe01ecf57
def V7_ZIP_SHA : Text := text "b8dd4e6d5b141d74092791798780a1f3fc59ae21d8f3a59727e1e169a1e06253"
def V7_RAD : Bytes32 := 0xf12f37c6b8a311efbcd706bf1850c10d02aff5e30570a9d2afe6a3712604dfea
def V8_ZIP_SHA : Text := text "6c92a429affc2bee83290e01129b052f0af1dc9d3481112fe147f5b8367b8aa9"
def V8_RAD : Bytes32 := 0x5f92fd120f5a09f4e8feeab811ae2e278ba20f299c8386f32ee121e5fc896662

def boundPriors : Priors :=
  ⟨⟨V5_ZIP_SHA,V5_RAD_EXACT⟩,⟨V6_ZIP_SHA,V6_RAD⟩,⟨V7_ZIP_SHA,V7_RAD⟩,⟨V8_ZIP_SHA,V8_RAD⟩⟩

/-- The inputs of the recovery operator's constructor. -/
structure Inputs where
  recoveryPacket : Packet
  recoveryPolicy : Policy
  recoverySnapshot : Snapshot
  recoveryAuthorization : Canonical
  noDuplicateKeys : Bool
  signablesDigest : List CanonicalTx → Bytes32

/-- A refreshed step of the packaged object: its calldata has the bound hash and deadline. -/
def refreshBound (keccak256 : Hash) (pkg : Canonical) (x : RefreshStep) : Bool :=
  match pkg.immediate.find? fun t => t.originalIndex = x.originalIndex with
  | none => false
  | some tx => keccak256 tx.data = x.newDataKeccak &&
      deadlineWord tx.data x.wordOffsetBytes = some pkg.deadlineRefresh.newDeadline

/-- The checks of `bindAndVerifyPacket`, each by its name. -/
def bindChecks (env : Env Canonical) (x : Inputs) : List (String × Bool) :=
  let a := x.recoveryPacket
  let p := x.recoveryPolicy
  let s := x.recoverySnapshot
  let recon := canonicalObject a p s
  let digestR := env.digestOf recon
  let pkg := x.recoveryAuthorization
  let dr := pkg.deadlineRefresh
  let recomputed := x.signablesDigest pkg.immediate
  [("canonicalReconstructs",(buildErrors env.dateParse a p s).isEmpty),
    ("packagedValid",(validateRecoveryStrict env.dateParse pkg).isEmpty),
    ("packagedNoDuplicateKeys",x.noDuplicateKeys),
    ("anchorsAgree",eqDigest digestR (env.digestOf pkg) &&
      eqDigest digestR a.header.recoveryAuthorizationDigest &&
      eqDigest digestR p.recoveryAuthorizationDigest),
    ("reconMatchesPackaged",recon = pkg),
    ("remainingExecDigestMatches",recomputed = a.header.remainingExecutionDigest &&
      recomputed = pkg.remainingExecutionDigest),
    ("priorAnchorsBound",pkg.priors = boundPriors),
    ("originalPlanBound",pkg.stepCount = 19 && pkg.deployerStepRange = text "1-13"),
    ("completedDeployerRange1to13",completedRange pkg.wallets.deployer 13 pkg.completedSteps),
    ("thirteenAnchors",
      pkg.completedSteps.map Anchor.originalIndex = (List.range 13).map (·+1) &&
        pkg.completedSteps.all fun x => x.nonce = x.originalIndex+2),
    ("sixTesterSignables",pkg.count = 6 &&
      pkg.immediate.map CanonicalTx.originalIndex = (List.range 6).map (·+14) &&
      pkg.immediate.map CanonicalTx.nonce = (List.range 6).map (·+2) &&
      pkg.immediate.all (fun t => t.signer = pkg.wallets.tester) &&
      !pkg.immediate.any fun t => t.originalIndex ≤ 13 || t.signer = pkg.wallets.deployer),
    ("nonceExpectations",pkg.deployerExpectedNonce = 16 && pkg.testerExpectedNonce = 2),
    ("gasPolicyBound",pkg.gasPolicy.maxPriorityCeilingWei = PRIORITY_CEILING_WEI &&
      pkg.gasPolicy.maxFeeCeilingUnchanged && pkg.gasPolicy.gasLimitCeilingUnchanged),
    ("deadlineRefreshBound",dr.steps.length = 2 && dr.oldDeadline = OLD_DEADLINE &&
      expiryEpoch env.dateParse pkg.expiresAtUtc = some dr.newDeadline &&
      dr.steps.all (refreshBound env.keccak256 pkg)),
    ("eightCompletedContracts",pkg.completedContracts.length = 8),
    ("chainId4663",pkg.chainId = 4663),
    ("capIs130",pkg.maxAllInclusiveExposureUsd = 130)]

/-- A bound step; the verifier reads four of the five ceilings. -/
def CanonicalTx.step (t : CanonicalTx) : Step :=
  { index := t.remainingIndex
    phase := t.phase
    label := t.label
    postconditionType := t.postconditionType
    signer := t.signer
    nonce := t.nonce
    target := t.target
    value := t.value
    dataOrInitCode := t.data
    gasLimit := t.gasLimit
    maxFeePerGas := t.maxFeePerGas
    maxPriorityFeePerGas := t.maxPriorityFeePerGas
    gasCeilings := some
      { gasLimitCeiling := t.gasCeilings.gasLimitCeiling
        maxFeeCeilingWei := t.gasCeilings.maxFeeCeilingWei
        maxPriorityCeilingWei := t.gasCeilings.maxPriorityCeilingWei
        maxGasCostCeilingWei := t.gasCeilings.maxGasCostCeilingWei }
    deployment := none }

/-- The single runtime data source after binding; the packet's authorization digest keys the
stored records. -/
def Canonical.runtime (env : Env Canonical) (execDigest : Text) (c : Canonical) : Runtime :=
  { keccak256 := env.keccak256
    execDigest := execDigest
    steps := c.immediate.map CanonicalTx.step
    addr := fun slot => ((c.completedContracts.find? (·.slot = slot)).map (·.address)).getD 0
    deployer := c.wallets.deployer
    tester := c.wallets.tester
    factory := c.infrastructure.uniswapV3Factory
    npm := c.infrastructure.nonfungiblePositionManager
    nvda := c.infrastructure.nvdaStockToken
    pool := c.pool
    canaryTokenSymbol := c.canaryTokenSymbol
    lp := c.lp
    buy := c.buy
    sell := c.sell
    lock := c.lock
    dependencies := c.dependencies
    expiresAtUtc := env.dateParse c.expiresAtUtc
    exposurePrincipalWei := c.exposure.remainingPrincipalWei
    exposureGasWei := c.exposure.remainingMaxGasWei + c.exposure.realizedGasWei
    capMicro := c.maxAllInclusiveExposureUsd*1000000
    authFlags := c.flags
    signableHash := env.signableHash
    receiptPolls := env.receiptPolls
    hasPriceProvider := env.hasPriceProvider }

/-- `bindAndVerifyPacket` of the recovery operator. -/
def bindAndVerifyPacket (env : Env Canonical) (x : Inputs) : Except (List String) Runtime :=
  if (bindChecks env x).all Prod.snd then
    .ok (x.recoveryAuthorization.runtime env x.recoveryPacket.header.recoveryAuthorizationDigest)
  else .error (Runtime.failedGates (bindChecks env x))

end Recovery
end Canary
end BpsProtocol
