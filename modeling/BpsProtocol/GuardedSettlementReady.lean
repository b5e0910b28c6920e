import BpsProtocol.GuardedSettlement

/-! What a ready settlement intent guarantees.
Each check is empty exactly when its condition holds, so readiness is their conjunction. -/
namespace BpsProtocol
namespace GuardedSettlement

open HexText Shared MerkleProof

theorem fail_eq_nil {status : GuardStatus} {message : String}
    {refuses : status ≠ .readyOfflineOnly} : fail status message refuses = [] ↔ False :=
  ⟨nofun,False.elim⟩

theorem failIf_eq_nil {c : Prop} [Decidable c] {status : GuardStatus} {message : String}
    {refuses : status ≠ .readyOfflineOnly} : failIf c status message refuses = [] ↔ ¬c := by
  unfold failIf
  split <;> simp_all [fail]

variable {platform : Platform} {input : GuardedSettlementInput} {policy : SettlementPolicy}
  {intent : SettlementIntent}

/-- `READY_OFFLINE_ONLY` is the status of the empty list of failures alone. -/
theorem status_eq_ready :
    (evaluateGuardedSettlement platform input).status = .readyOfflineOnly ↔
      input.failures platform = [] := by
  simp only [evaluateGuardedSettlement]
  cases h : input.failures platform with
  | nil => simp
  | cons failure rest =>
    simp only [reduceCtorEq,iff_false]
    exact failure.refuses

/-- The checks of a ready input, each with nothing to report. -/
structure Cleared (platform : Platform) (input : GuardedSettlementInput) : Prop where
  policy : policyFailures input.policy = []
  identity : identityFailures input.policy input.intent = []
  pair : pairFailures input.policy input.intent = []
  amount : amountFailures input.policy input.intent = []
  value : valueFailures input.intent = []
  fee : feeFailures input.policy input.intent = []
  slippage : slippageFailures input.policy input.intent = []
  calldata : calldataFailures input.intent = []
  selector : selectorFailures input.policy input.intent = []
  taker : takerFailures input.policy input.intent = []
  registry : registryFailures input.policy input.intent platform.dateParse input.nowSec
    input.registryObservation = []
  price : priceFailures input.policy input.intent input.nowSec input.priceObservation = []
  expiry : expiryFailures input.policy input.intent input.nowSec = []
  digest : digestFailures input.intent platform.sha256 = []
  replay : replayFailures input.intent input.replayStore = []

theorem ready_iff_cleared :
    (evaluateGuardedSettlement platform input).status = .readyOfflineOnly ↔
      Cleared platform input := by
  rw [status_eq_ready]
  unfold GuardedSettlementInput.failures
  simp only [List.append_eq_nil_iff]
  constructor
  · rintro ⟨⟨⟨⟨⟨⟨⟨⟨⟨⟨⟨⟨⟨⟨h1,h2⟩,h3⟩,h4⟩,h5⟩,h6⟩,h7⟩,h8⟩,h9⟩,h10⟩,h11⟩,h12⟩,h13⟩,h14⟩,h15⟩
    exact ⟨h1,h2,h3,h4,h5,h6,h7,h8,h9,h10,h11,h12,h13,h14,h15⟩
  · intro h
    exact ⟨⟨⟨⟨⟨⟨⟨⟨⟨⟨⟨⟨⟨⟨h.policy,h.identity⟩,h.pair⟩,h.amount⟩,h.value⟩,h.fee⟩,h.slippage⟩,
      h.calldata⟩,h.selector⟩,h.taker⟩,h.registry⟩,h.price⟩,h.expiry⟩,h.digest⟩,h.replay⟩

section Conditions

variable {nowSec : ℤ}

theorem policyFailures_eq_nil (h : policyFailures policy = []) :
    0 < policy.maxIntentLifetimeSec ∧ policy.maxIntentLifetimeSec ≤ 300 := by
  simp only [policyFailures,List.append_eq_nil_iff,failIf_eq_nil,not_or,not_le,not_lt] at h
  exact h.1.2

theorem identityFailures_eq_nil : identityFailures policy intent = [] ↔
    intent.chainId = policy.chainId ∧ toLowerCase intent.registry = toLowerCase policy.registry ∧
      intent.feature = policy.feature := by
  simp only [identityFailures,List.append_eq_nil_iff,failIf_eq_nil,ne_eq,not_not,and_assoc]

theorem amountFailures_eq_nil : amountFailures policy intent = [] ↔
    0 < intent.sellAmountRaw ∧ 0 < intent.minBuyAmountRaw ∧ capFailures policy intent = [] := by
  simp only [amountFailures,List.append_eq_nil_iff,failIf_eq_nil,not_or,not_le,and_assoc]

theorem calldataFailures_eq_nil : calldataFailures intent = [] ↔
    ∃ hash, intent.calldataHash = some hash ∧ isHash32 hash = true := by
  rw [calldataFailures,failIf_eq_nil]
  cases intent.calldataHash <;> simp

theorem selectorFailures_eq_nil (h : selectorFailures policy intent = []) :
    isSelector intent.selector = true := by
  simp only [selectorFailures,failIf_eq_nil,not_not] at h
  exact h.1

theorem takerFailures_eq_nil (h : takerFailures policy intent = []) :
    isAddress intent.taker = true ∧
      some (toLowerCase intent.taker) = policy.finalTaker.map toLowerCase := by
  have htaker := (List.append_eq_nil_iff.mp h).1
  unfold policyTakerFailures at htaker
  split at htaker
  · exact (fail_eq_nil.mp htaker).elim
  · simp only [failIf_eq_nil,not_or,Bool.not_eq_false,ne_eq,not_not] at htaker
    exact htaker

theorem reconcileFailures_eq_nil {obs : RegistryFeatureObservation}
    (h : reconcileFailures intent obs = []) : isAddress intent.expectedTarget = true ∧
      toLowerCase intent.expectedTarget = toLowerCase obs.currentRouter := by
  have hok : reconcileRegistryTarget intent.expectedTarget obs = .ok := by
    cases hcode : reconcileRegistryTarget intent.expectedTarget obs with
    | ok => rfl
    | _ =>
      simp only [reconcileFailures,hcode] at h
      exact (fail_eq_nil.mp h).elim
  unfold reconcileRegistryTarget at hok
  split at hok
  · cases hok
  · rename_i haddress
    simp only [not_or,Bool.not_eq_false] at haddress
    split at hok
    · cases hok
    · split at hok
      · cases hok
      · split at hok
        · cases hok
        · rename_i htarget
          exact ⟨haddress.1,not_not.mp htarget⟩

theorem registryFailures_eq_nil {dateParse : Text → Option ℤ}
    {observation : Option RegistryFeatureObservation}
    (h : registryFailures policy intent dateParse nowSec observation = []) :
    ∃ obs, observation = some obs ∧ isAddress intent.expectedTarget = true ∧
      toLowerCase intent.expectedTarget = toLowerCase obs.currentRouter := by
  cases observation with
  | none => exact (fail_eq_nil.mp h).elim
  | some obs =>
    simp only [registryFailures,List.append_eq_nil_iff] at h
    exact ⟨obs,rfl,reconcileFailures_eq_nil h.1.2⟩

theorem observedPriceFailures_eq_nil {maxAge : ℤ} {price : PriceObservation} :
    observedPriceFailures policy intent nowSec maxAge price = [] ↔
      toLowerCase price.sellToken = toLowerCase intent.sellToken ∧
      toLowerCase price.buyToken = toLowerCase intent.buyToken ∧ 0 < price.refSellAmountRaw ∧
      0 < price.refBuyAmountRaw ∧
      price.observedTimeSec.all (fun t => decide (maxAge < nowSec-t ∨ nowSec < t)) = false ∧
      intent.minBuyAmountRaw ≤ permittedMax policy intent price := by
  unfold observedPriceFailures
  by_cases hpair : toLowerCase price.sellToken ≠ toLowerCase intent.sellToken ∨
      toLowerCase price.buyToken ≠ toLowerCase intent.buyToken
  · rw [if_pos hpair,fail_eq_nil,false_iff]
    rintro ⟨hsell,hbuy,-⟩
    exact hpair.elim (fun hne => hne hsell) (fun hne => hne hbuy)
  · rw [if_neg hpair]
    simp only [not_or,ne_eq,not_not] at hpair
    by_cases href : price.refSellAmountRaw ≤ 0 ∨ price.refBuyAmountRaw ≤ 0
    · rw [if_pos href,fail_eq_nil,false_iff]
      rintro ⟨-,-,hsell,hbuy,-⟩
      omega
    · rw [if_neg href]
      simp only [not_or,not_le] at href
      split
      · rename_i hstale
        rw [fail_eq_nil,hstale]
        simp
      · rename_i hfresh
        rw [failIf_eq_nil,not_lt]
        simp only [Bool.not_eq_true] at hfresh
        exact ⟨fun hmin => ⟨hpair.1,hpair.2,href.1,href.2,hfresh,hmin⟩,fun h => h.2.2.2.2.2⟩

/-- A price is only used from an approved source, and within its age limit. -/
theorem priceFailures_eq_nil {price : Option PriceObservation} :
    priceFailures policy intent nowSec price = [] ↔
      ∃ observed maxAge, price = some observed ∧ policy.maxPriceObservationAgeSec = some maxAge ∧
        toLowerCase observed.source ∈ policy.allowedPriceSources.map toLowerCase ∧
        observedPriceFailures policy intent nowSec maxAge observed = [] := by
  unfold priceFailures
  split
  · rename_i hsources hage
    split
    · rename_i hsource
      rw [fail_eq_nil,false_iff]
      rintro ⟨observed,_,hobserved,-,hin,-⟩
      cases hobserved
      exact hsource hin
    · rename_i hsource
      constructor
      · intro h
        exact ⟨_,_,rfl,hage,not_not.mp hsource,h⟩
      · rintro ⟨observed,maxAge,hobserved,hage',-,h⟩
        cases hobserved
        cases hage.symm.trans hage'
        exact h
  · rw [fail_eq_nil,false_iff]
    rintro ⟨_,_,hnone,-⟩
    cases hnone
  · rename_i hnot _
    rw [fail_eq_nil,false_iff]
    rintro ⟨observed,maxAge,rfl,hage,hin,-⟩
    cases hsources : policy.allowedPriceSources with
    | nil => simp [hsources] at hin
    | cons source rest => exact hnot source rest maxAge observed hsources hage rfl

theorem expiryFailures_eq_nil : expiryFailures policy intent nowSec = [] ↔
    0 < intent.deadlineSec ∧ 0 < intent.deadlineSec-intent.createdAtSec ∧
      intent.deadlineSec-intent.createdAtSec ≤ policy.maxIntentLifetimeSec ∧
      nowSec ≤ intent.deadlineSec := by
  unfold expiryFailures lifetimeFailures
  split_ifs
  · rw [fail_eq_nil,false_iff]
    omega
  · rw [List.append_eq_nil_iff,fail_eq_nil,false_and,false_iff]
    omega
  · rw [List.append_eq_nil_iff,failIf_eq_nil,failIf_eq_nil]
    omega

end Conditions

/-- A platform for runs on fixed inputs: every date is `1000` seconds. -/
def samplePlatform : Platform where
  sha256 := fun t => toyHash (t.map fun c => UInt8.ofNat c.toNat)
  dateParse := fun _ => some 1000000

def samplePolicy : SettlementPolicy where
  guardVersion := GUARD_VERSION
  chainId := 4663
  registry := addressText 70
  feature := 2
  allowedPairs := [⟨addressText 40,addressText 50⟩]
  maxSellAmountRawByToken := fun t => if t = addressText 40 then some 5000 else none
  allowedSelectors := ["0x01020304".toList]
  maxPlatformFeeBps := 5
  integratorFeeAllowed := false
  defaultSlippageBps := 50
  maxSlippageBps := 100
  maxPriceDeviationBps := 100
  maxPriceObservationAgeSec := some 300
  maxRegistryObservationAgeSec := some 300
  maxIntentLifetimeSec := 300
  finalTaker := some (addressText 80)
  allowedPriceSources := ["oracle".toList]
  paused := false

/-- An intent at the reference price, from second `1000` to second `1200`. -/
def sampleIntent : SettlementIntent where
  version := GUARD_VERSION
  chainId := 4663
  registry := addressText 70
  feature := 2
  sellToken := addressText 40
  buyToken := addressText 50
  sellAmountRaw := 1000
  minBuyAmountRaw := 9000
  expectedTarget := addressText 71
  selector := "0x01020304".toList
  calldataHash := some ('0' :: 'x' :: write 64 0xab)
  txValue := 0
  platformFeeBps := 5
  integratorFeePresent := false
  slippageBps := 50
  taker := addressText 80
  nonce := 1
  intentDigest := []
  createdAtSec := 1000
  deadlineSec := 1200

/-- The sample observations of an intent, at second `1100` and nine for one. -/
def sampleInput (i : SettlementIntent) : GuardedSettlementInput where
  policy := samplePolicy
  intent := buildIntent samplePlatform.sha256 i
  registryObservation := some
    ⟨addressText 70,2,addressText 71,addressText 0,addressText 0,false,none,some []⟩
  priceObservation := some
    ⟨"oracle".toList,some 1050,addressText 40,addressText 50,1000,9000⟩
  replayStore := inMemoryReplayStore [] []
  nowSec := 1100

theorem sampleInput_ready :
    (evaluateGuardedSettlement samplePlatform (sampleInput sampleIntent)).status =
      .readyOfflineOnly := by
  decide +kernel

end GuardedSettlement
end BpsProtocol
