import BpsProtocol.LeafEncoding
import BpsProtocol.Lib.Separated

/-! The off-chain guard of a settlement intent.
Every check adds its failures to one list; an intent is ready when the list is empty.  The
registry, the price, the replay store and the clock are inputs. -/
namespace BpsProtocol
namespace GuardedSettlement

open HexText Shared MerkleProof

def GUARD_VERSION : Text := "bps-guarded-settlement/1".toList
def OFFICIAL_REGISTRY : Text := "0x71a120CbBf3Ce7cD910a3c50fF77aFc62735687E".toList
def WETH : Text := "0x0Bd7D308f8E1639FAb988df18A8011f41EAcAD73".toList
def NVDA : Text := "0xd0601CE157Db5bdC3162BbaC2a2C8aF5320D9EEC".toList
def DEAD_ADDRESS : Text := addressText 0xdead

/-- `0x` and a fixed number of hexadecimal digits. -/
def isHexOf (width : ℕ) : Text → Bool
  | '0' :: 'x' :: digits => digits.length = width && digits.all isDigit
  | _ => false

def isAddress (v : Text) : Bool := isHexOf 40 v
def isSelector (v : Text) : Bool := isHexOf 8 v
def isHash32 (v : Text) : Bool := isHexOf 64 v

/-- What the module takes from its platform: SHA-256 over the UTF-8 bytes of a string, and
`Date.parse` in milliseconds, with no value for `NaN`. -/
structure Platform where
  sha256 : Text → Bytes32
  dateParse : Text → Option ℤ

inductive GuardStatus
  | readyOfflineOnly
  | policyIncomplete
  | wrongChain
  | registryMismatch
  | featureMismatch
  | registryObservationMissing
  | registryObservationStale
  | registryPaused
  | routerMismatch
  | selectorUnapproved
  | takerUnresolved
  | takerMismatch
  | tokenNotAllowed
  | amountInvalid
  | amountLimitUnresolved
  | amountExceedsLimit
  | nonzeroTxValue
  | feePolicyViolation
  | slippagePolicyViolation
  | calldataHashInvalid
  | priceSourceUnresolved
  | pricePairMismatch
  | priceObservationStale
  | priceDeviationExceeded
  | missingDeadline
  | intentExpired
  | intentLifetimeExcessive
  | digestMismatch
  | replayDetected
  | nonceReused
  deriving DecidableEq

structure TokenPair where
  sellToken : Text
  buyToken : Text

/-- No value stands for `null`, an unresolved fact; the caps are looked up by token. -/
structure SettlementPolicy where
  guardVersion : Text
  chainId : ℤ
  registry : Text
  feature : ℤ
  allowedPairs : List TokenPair
  maxSellAmountRawByToken : Text → Option ℤ
  allowedSelectors : List Text
  maxPlatformFeeBps : ℤ
  integratorFeeAllowed : Bool
  defaultSlippageBps : ℤ
  maxSlippageBps : ℤ
  maxPriceDeviationBps : ℤ
  maxPriceObservationAgeSec : Option ℤ
  maxRegistryObservationAgeSec : Option ℤ
  maxIntentLifetimeSec : ℤ
  finalTaker : Option Text
  allowedPriceSources : List Text
  paused : Bool

structure SettlementIntent where
  version : Text
  chainId : ℤ
  registry : Text
  feature : ℤ
  sellToken : Text
  buyToken : Text
  sellAmountRaw : ℤ
  minBuyAmountRaw : ℤ
  expectedTarget : Text
  selector : Text
  calldataHash : Option Text
  txValue : ℤ
  platformFeeBps : ℤ
  integratorFeePresent : Bool
  slippageBps : ℤ
  taker : Text
  nonce : ℤ
  intentDigest : Text
  createdAtSec : ℤ
  deadlineSec : ℤ

structure PriceObservation where
  source : Text
  observedTimeSec : Option ℤ
  sellToken : Text
  buyToken : Text
  refSellAmountRaw : ℤ
  refBuyAmountRaw : ℤ

structure RegistryFeatureObservation where
  registry : Text
  feature : ℤ
  currentRouter : Text
  previousRouter : Text
  nextRouter : Text
  paused : Bool
  blockNumber : Option ℤ
  observationTimeUtc : Option Text

structure ReplayStore where
  isDigestConsumed : Text → Bool
  isNonceUsed : (taker : Text) → (nonce : ℤ) → Bool
  nonProduction : Bool

/-- `InMemoryReplayStore`, whose keys are in lower case. -/
def inMemoryReplayStore (consumedDigests usedNonces : List Text) : ReplayStore where
  isDigestConsumed := fun digest => decide (toLowerCase digest ∈ consumedDigests.map toLowerCase)
  isNonceUsed := fun taker nonce =>
    decide (toLowerCase taker ++ ':'::toString10 nonce ∈ usedNonces.map toLowerCase)
  nonProduction := true

/-- No failure reports readiness. -/
structure GuardFailure where
  status : GuardStatus
  message : String
  refuses : status ≠ .readyOfflineOnly := by decide
  deriving DecidableEq

/-- `add(status, message)` -/
def fail (status : GuardStatus) (message : String)
    (refuses : status ≠ .readyOfflineOnly := by decide) : List GuardFailure :=
  [⟨status,message,refuses⟩]

def failIf (c : Prop) [Decidable c] (status : GuardStatus) (message : String)
    (refuses : status ≠ .readyOfflineOnly := by decide) : List GuardFailure :=
  if c then fail status message refuses else []

section Registry

inductive RegistryReconcileCode
  | ok
  | missingRegistryField
  | malformedAddress
  | zeroCurrentRouter
  | featurePaused
  | targetRouterMismatch
  deriving DecidableEq

def RegistryReconcileCode.text : RegistryReconcileCode → String
  | ok => "OK"
  | missingRegistryField => "MISSING_REGISTRY_FIELD"
  | malformedAddress => "MALFORMED_ADDRESS"
  | zeroCurrentRouter => "ZERO_CURRENT_ROUTER"
  | featurePaused => "FEATURE_PAUSED"
  | targetRouterMismatch => "TARGET_ROUTER_MISMATCH"

/-- The code of `reconcileRegistryTarget`; an observation of this type has all its fields. -/
def reconcileRegistryTarget (target : Text) (obs : RegistryFeatureObservation) :
    RegistryReconcileCode :=
  if isAddress target = false ∨ isAddress obs.registry = false ∨
      isAddress obs.currentRouter = false ∨ isAddress obs.previousRouter = false ∨
      isAddress obs.nextRouter = false then .malformedAddress
  else if toLowerCase obs.currentRouter = ZERO_ADDRESS then .zeroCurrentRouter
  else if obs.paused = true then .featurePaused
  else if toLowerCase target ≠ toLowerCase obs.currentRouter then .targetRouterMismatch
  else .ok

end Registry

/-- The parts of the digest's preimage, in their order. -/
def SettlementIntent.digestParts (i : SettlementIntent) : List Text :=
  ["BPS-GUARDED-SETTLEMENT".toList,i.version,toString10 i.chainId,toLowerCase i.registry,
    toString10 i.feature,toLowerCase i.taker,toString10 i.nonce,toString10 i.deadlineSec,
    toLowerCase i.expectedTarget,toLowerCase i.selector,toLowerCase i.sellToken,
    toLowerCase i.buyToken,toString10 i.sellAmountRaw,toString10 i.minBuyAmountRaw,
    match i.calldataHash with
    | some hash => if hash = [] then "NO_CALLDATA_HASH".toList else toLowerCase hash
    | none => "NO_CALLDATA_HASH".toList]

def SettlementIntent.preimage (i : SettlementIntent) : Text := Separated.join '|' i.digestParts

def computeIntentDigest (sha256 : Text → Bytes32) (i : SettlementIntent) : Text :=
  '0' :: 'x' :: write 64 (sha256 i.preimage).val

/-- `buildIntent`: the guard's version and the digest of the other fields. -/
def buildIntent (sha256 : Text → Bytes32) (i : SettlementIntent) : SettlementIntent :=
  let withVersion := { i with version := GUARD_VERSION }
  { withVersion with intentDigest := computeIntentDigest sha256 withVersion }

def floorDiv (a b : ℤ) : ℤ := a.tdiv b

def pairAllowed (policy : SettlementPolicy) (sellToken buyToken : Text) : Bool :=
  policy.allowedPairs.any fun p =>
    toLowerCase p.sellToken = toLowerCase sellToken && toLowerCase p.buyToken = toLowerCase buyToken

section Checks

variable (policy : SettlementPolicy) (intent : SettlementIntent)

def policyFailures : List GuardFailure :=
  failIf (policy.guardVersion ≠ GUARD_VERSION) .policyIncomplete "unexpected guard version" ++
  failIf (isAddress policy.registry = false) .policyIncomplete
    "policy registry is not an address" ++
  failIf (policy.maxSlippageBps ≤ 0 ∨ policy.defaultSlippageBps < 0) .policyIncomplete
    "slippage policy bounds are invalid" ++
  failIf (policy.maxSlippageBps < policy.defaultSlippageBps) .policyIncomplete
    "default slippage exceeds the maximum" ++
  failIf (policy.maxIntentLifetimeSec ≤ 0 ∨ 300 < policy.maxIntentLifetimeSec) .policyIncomplete
    "intent lifetime must be > 0 and <= 300 seconds" ++
  failIf (policy.paused = true) .policyIncomplete "policy is paused (disabled)"

def identityFailures : List GuardFailure :=
  failIf (intent.chainId ≠ policy.chainId) .wrongChain
    ("intent chain " ++ toString intent.chainId ++ " != " ++ toString policy.chainId) ++
  failIf (toLowerCase intent.registry ≠ toLowerCase policy.registry) .registryMismatch
    "intent registry != policy registry" ++
  failIf (intent.feature ≠ policy.feature) .featureMismatch
    ("intent feature != " ++ toString policy.feature)

def pairFailures : List GuardFailure :=
  failIf (pairAllowed policy intent.sellToken intent.buyToken = false) .tokenNotAllowed
    "sell/buy token pair or direction is not allowed"

def capFailures : List GuardFailure :=
  match policy.maxSellAmountRawByToken (toLowerCase intent.sellToken) with
  | none => fail .amountLimitUnresolved "per-token maximum sell amount is unresolved"
  | some cap => failIf (cap < intent.sellAmountRaw) .amountExceedsLimit
    "sell amount exceeds the per-token maximum"

def amountFailures : List GuardFailure :=
  failIf (intent.sellAmountRaw ≤ 0 ∨ intent.minBuyAmountRaw ≤ 0) .amountInvalid
    "sell and minimum-buy amounts must be positive" ++
  capFailures policy intent

def valueFailures : List GuardFailure :=
  failIf (intent.txValue ≠ 0) .nonzeroTxValue "tx.value must be zero for ERC-20 WETH settlement"

def feeFailures : List GuardFailure :=
  failIf (policy.maxPlatformFeeBps < intent.platformFeeBps ∨ intent.platformFeeBps < 0)
    .feePolicyViolation "platform fee exceeds the policy maximum" ++
  failIf (intent.integratorFeePresent = true ∧ policy.integratorFeeAllowed = false)
    .feePolicyViolation "an integrator fee is present but forbidden by policy"

def slippageFailures : List GuardFailure :=
  failIf (intent.slippageBps < 0 ∨ policy.maxSlippageBps < intent.slippageBps)
    .slippagePolicyViolation "slippage exceeds the policy maximum"

def calldataFailures : List GuardFailure :=
  failIf (intent.calldataHash.any isHash32 = false) .calldataHashInvalid
    "calldata hash is missing or malformed"

def selectorFailures : List GuardFailure :=
  failIf (¬(isSelector intent.selector = true ∧
      toLowerCase intent.selector ∈ policy.allowedSelectors.map toLowerCase))
    .selectorUnapproved "selector is not in the approved allow-list"

/-- A policy taker that is an address other than the zero and the dead one. -/
def takerResolved (taker : Text) : Bool :=
  isAddress taker && toLowerCase taker ≠ ZERO_ADDRESS && toLowerCase taker ≠ DEAD_ADDRESS

def policyTakerFailures : List GuardFailure :=
  if policy.finalTaker.any takerResolved = false then
    fail .takerUnresolved "final taker is unresolved, zero, or the dead-address canary"
  else
    failIf (isAddress intent.taker = false ∨
        some (toLowerCase intent.taker) ≠ policy.finalTaker.map toLowerCase)
      .takerMismatch "intent taker does not equal the policy final taker"

def takerFailures : List GuardFailure :=
  policyTakerFailures policy intent ++
  failIf (isAddress intent.taker = true ∧
      (toLowerCase intent.taker = DEAD_ADDRESS ∨ toLowerCase intent.taker = ZERO_ADDRESS))
    .takerUnresolved "intent taker is the zero or dead-address canary"

def reconcileFailures (obs : RegistryFeatureObservation) : List GuardFailure :=
  match reconcileRegistryTarget intent.expectedTarget obs with
  | .featurePaused => fail .registryPaused "registry feature is paused"
  | .missingRegistryField => fail .registryObservationMissing "registry field missing"
  | .ok => []
  | code => fail .routerMismatch ("target does not equal the current router (" ++ code.text ++ ")")

def registryAgeFailures (dateParse : Text → Option ℤ) (nowSec : ℤ)
    (obs : RegistryFeatureObservation) : List GuardFailure :=
  if obs.blockNumber = none ∧ obs.observationTimeUtc = none then
    fail .registryObservationStale "registry observation is undated (cannot prove freshness)"
  else
    match policy.maxRegistryObservationAgeSec, obs.observationTimeUtc with
    | none, _ =>
      fail .registryObservationStale "policy max registry observation age is unresolved"
    | some _, none =>
      fail .registryObservationStale "registry observation age is unverifiable offline (no timestamp)"
    | some maxAge, some time =>
      let obsSec := (dateParse time).map (·/1000)
      failIf (obsSec.all (fun t => decide (maxAge < nowSec-t ∨ nowSec < t)) = true)
        .registryObservationStale "registry observation is stale or future-dated"

def registryFailures (dateParse : Text → Option ℤ) (nowSec : ℤ) :
    Option RegistryFeatureObservation → List GuardFailure
  | none => fail .registryObservationMissing "no registry observation supplied"
  | some obs =>
    failIf (isAddress obs.registry = false ∨
        toLowerCase obs.registry ≠ toLowerCase policy.registry)
      .registryMismatch "registry observation address != policy registry" ++
    failIf (obs.feature ≠ policy.feature) .featureMismatch
      "registry observation feature != policy feature" ++
    reconcileFailures intent obs ++
    registryAgeFailures policy dateParse nowSec obs

/-- The most that an intent may ask for its sale at the reference price. -/
def permittedMax (price : PriceObservation) : ℤ :=
  let refBuyForSell := floorDiv (price.refBuyAmountRaw*intent.sellAmountRaw) price.refSellAmountRaw
  floorDiv (refBuyForSell*(10000+policy.maxPriceDeviationBps)) 10000

def observedPriceFailures (nowSec maxAge : ℤ) (price : PriceObservation) : List GuardFailure :=
  if toLowerCase price.sellToken ≠ toLowerCase intent.sellToken ∨
      toLowerCase price.buyToken ≠ toLowerCase intent.buyToken then
    fail .pricePairMismatch "price observation pair/direction does not match the intent"
  else if price.refSellAmountRaw ≤ 0 ∨ price.refBuyAmountRaw ≤ 0 then
    fail .priceSourceUnresolved "price observation reference amounts are non-positive"
  else if price.observedTimeSec.all (fun t => decide (maxAge < nowSec-t ∨ nowSec < t)) = true then
    fail .priceObservationStale "price observation is stale, future-dated, or untimed"
  else
    failIf (permittedMax policy intent price < intent.minBuyAmountRaw) .priceDeviationExceeded
      "minimum buy amount exceeds the permitted deviation from the reference"

def priceFailures (nowSec : ℤ) (price : Option PriceObservation) : List GuardFailure :=
  match policy.allowedPriceSources, policy.maxPriceObservationAgeSec, price with
  | _::_, some maxAge, some price =>
    if toLowerCase price.source ∉ policy.allowedPriceSources.map toLowerCase then
      fail .priceSourceUnresolved "price observation source is not approved"
    else observedPriceFailures policy intent nowSec maxAge price
  | _::_, some _, none => fail .priceSourceUnresolved "no price observation supplied"
  | _, _, _ => fail .priceSourceUnresolved "no approved production price source / age limit"

def lifetimeFailures : List GuardFailure :=
  if intent.deadlineSec-intent.createdAtSec ≤ 0 then
    fail .intentExpired "intent deadline is not after its creation time"
  else
    failIf (policy.maxIntentLifetimeSec < intent.deadlineSec-intent.createdAtSec)
      .intentLifetimeExcessive "intent lifetime exceeds the policy maximum"

def expiryFailures (nowSec : ℤ) : List GuardFailure :=
  if intent.deadlineSec ≤ 0 then fail .missingDeadline "intent has no deadline" else
    lifetimeFailures policy intent ++
    failIf (intent.deadlineSec < nowSec) .intentExpired "intent deadline is in the past"

def digestFailures (sha256 : Text → Bytes32) : List GuardFailure :=
  failIf (toLowerCase (computeIntentDigest sha256 intent) ≠ toLowerCase intent.intentDigest)
    .digestMismatch "intent digest does not match its fields"

def replayFailures (replayStore : ReplayStore) : List GuardFailure :=
  failIf (replayStore.isDigestConsumed intent.intentDigest = true) .replayDetected
    "intent digest already consumed" ++
  failIf (isAddress intent.taker = true ∧ replayStore.isNonceUsed intent.taker intent.nonce = true)
    .nonceReused "taker nonce already used"

end Checks

structure GuardedSettlementInput where
  policy : SettlementPolicy
  intent : SettlementIntent
  registryObservation : Option RegistryFeatureObservation
  priceObservation : Option PriceObservation
  replayStore : ReplayStore
  nowSec : ℤ

/-- All failures, in the order in which the checks run. -/
def GuardedSettlementInput.failures (platform : Platform) (input : GuardedSettlementInput) :
    List GuardFailure :=
  let policy := input.policy
  let intent := input.intent
  policyFailures policy ++ identityFailures policy intent ++ pairFailures policy intent ++
  amountFailures policy intent ++ valueFailures intent ++ feeFailures policy intent ++
  slippageFailures policy intent ++ calldataFailures intent ++ selectorFailures policy intent ++
  takerFailures policy intent ++
  registryFailures policy intent platform.dateParse input.nowSec input.registryObservation ++
  priceFailures policy intent input.nowSec input.priceObservation ++
  expiryFailures policy intent input.nowSec ++ digestFailures intent platform.sha256 ++
  replayFailures intent input.replayStore

structure SettlementPlan where
  guardVersion : Text
  intentDigest : Text
  taker : Text
  target : Text
  sellToken : Text
  buyToken : Text
  sellAmountRaw : Text
  minBuyAmountRaw : Text
  deadlineSec : ℤ

/-- The plan of a ready intent; its steps and notices are fixed texts. -/
def sanitizedPlan (policy : SettlementPolicy) (intent : SettlementIntent) : SettlementPlan where
  guardVersion := policy.guardVersion
  intentDigest := intent.intentDigest
  taker := intent.taker
  target := intent.expectedTarget
  sellToken := intent.sellToken
  buyToken := intent.buyToken
  sellAmountRaw := toString10 intent.sellAmountRaw
  minBuyAmountRaw := toString10 intent.minBuyAmountRaw
  deadlineSec := intent.deadlineSec

def computeRemainingGates (policy : SettlementPolicy) : List String :=
  (if policy.allowedSelectors = [] then
    ["APPROVED_SELECTOR — production selector allow-list is empty (0x77963966 is evidence-only)"]
    else []) ++
  (if policy.finalTaker.any isAddress = false then
    ["FINAL_TAKER — guarded-executor/Safe taker address unresolved"] else []) ++
  (if policy.allowedPairs.any (fun p =>
      policy.maxSellAmountRawByToken (toLowerCase p.sellToken) = none) then
    ["PER_TOKEN_AMOUNT_CAP — maximum sell amount unresolved"] else []) ++
  (if policy.maxRegistryObservationAgeSec = none then
    ["DATED_REGISTRY_STRATEGY — max registry observation age unresolved (undated snapshots fail closed)"]
    else []) ++
  (if policy.allowedPriceSources = [] ∨ policy.maxPriceObservationAgeSec = none then
    ["TRUSTED_PRICE_SOURCE — no approved production price source / age limit (D-22B)"] else [])

structure ValidatedPolicy where
  guardVersion : Text
  chainId : ℤ
  registry : Text
  feature : ℤ
  selectorAllowListSize : ℕ
  finalTakerResolved : Bool
  priceSourcesResolved : Bool
  registryAgeLimitResolved : Bool
  priceAgeLimitResolved : Bool
  paused : Bool

def validatedPolicy (policy : SettlementPolicy) : ValidatedPolicy where
  guardVersion := policy.guardVersion
  chainId := policy.chainId
  registry := policy.registry
  feature := policy.feature
  selectorAllowListSize := policy.allowedSelectors.length
  finalTakerResolved := policy.finalTaker.any takerResolved
  priceSourcesResolved :=
    policy.allowedPriceSources.length > 0 && policy.maxPriceObservationAgeSec.isSome
  registryAgeLimitResolved := policy.maxRegistryObservationAgeSec.isSome
  priceAgeLimitResolved := policy.maxPriceObservationAgeSec.isSome
  paused := policy.paused

structure ReadinessResult where
  ready : Bool
  status : GuardStatus
  failures : List GuardFailure
  warnings : List String
  validatedPolicy : ValidatedPolicy
  sanitizedPlan : Option SettlementPlan
  remainingProductionGates : List String

def evaluateGuardedSettlement (platform : Platform) (input : GuardedSettlementInput) :
    ReadinessResult :=
  let failures := input.failures platform
  { ready := failures = []
    status := match failures with
      | [] => .readyOfflineOnly
      | failure::_ => failure.status
    failures
    warnings := if input.replayStore.nonProduction then
      ["replay store is the NON-PRODUCTION in-memory implementation (tests/offline only)"] else []
    validatedPolicy := validatedPolicy input.policy
    sanitizedPlan := if failures = [] then some (sanitizedPlan input.policy input.intent) else none
    remainingProductionGates := computeRemainingGates input.policy }

end GuardedSettlement
end BpsProtocol
