import BpsProtocol.GuardedExecutorSafety
import BpsProtocol.GuardedSettlementReady

/-! Price and time of a ready intent.
The off-chain price check bounds the minimum from above only.  The lifetime of an intent is
bounded, but not from the current time: a creation time in the future moves the whole
lifetime there. -/
namespace BpsProtocol
namespace GuardedSettlement

open HexText Shared MerkleProof

section Price

variable {platform : Platform} {input : GuardedSettlementInput} {policy : SettlementPolicy}
  {intent : SettlementIntent} {price : PriceObservation}

/-- The two floors only lower the permitted maximum. -/
theorem permittedMax_mul_le (hsell : 0 < intent.sellAmountRaw) (hrefSell : 0 < price.refSellAmountRaw)
    (hrefBuy : 0 < price.refBuyAmountRaw) (hpos : 0 < permittedMax policy intent price) :
    permittedMax policy intent price*price.refSellAmountRaw*10000 ≤
      price.refBuyAmountRaw*intent.sellAmountRaw*(10000+policy.maxPriceDeviationBps) := by
  have hprod : 0 ≤ price.refBuyAmountRaw*intent.sellAmountRaw := by positivity
  unfold permittedMax floorDiv at hpos ⊢
  set ref := (price.refBuyAmountRaw*intent.sellAmountRaw).tdiv price.refSellAmountRaw with hrefdef
  set dev := 10000+policy.maxPriceDeviationBps
  have href0 : 0 ≤ ref := Int.tdiv_nonneg hprod hrefSell.le
  have href : ref*price.refSellAmountRaw ≤ price.refBuyAmountRaw*intent.sellAmountRaw := by
    rw [hrefdef,Int.tdiv_eq_ediv_of_nonneg hprod]
    exact Int.ediv_mul_le _ hrefSell.ne'
  have hdev : 0 ≤ dev := by
    by_contra hneg
    have hle : 0 ≤ -(ref*dev) := neg_nonneg.mpr (mul_nonpos_of_nonneg_of_nonpos href0 (by omega))
    have hquot : 0 ≤ (-(ref*dev)).tdiv 10000 := Int.tdiv_nonneg hle (by decide)
    rw [Int.neg_tdiv] at hquot
    dsimp only at hpos
    omega
  have hmax : (ref*dev).tdiv 10000*10000 ≤ ref*dev := by
    rw [Int.tdiv_eq_ediv_of_nonneg (mul_nonneg href0 hdev)]
    exact Int.ediv_mul_le _ (by decide)
  calc (ref*dev).tdiv 10000*price.refSellAmountRaw*10000
      = (ref*dev).tdiv 10000*10000*price.refSellAmountRaw := by ring
    _ ≤ ref*dev*price.refSellAmountRaw := by gcongr
    _ = ref*price.refSellAmountRaw*dev := by ring
    _ ≤ price.refBuyAmountRaw*intent.sellAmountRaw*dev := by gcongr

/-- The same request with another minimum, under its own digest. -/
def askingFor (sha256 : Text → Bytes32) (intent : SettlementIntent) (minimum : ℤ) :
    SettlementIntent :=
  let asked := { intent with minBuyAmountRaw := minimum }
  { asked with intentDigest := computeIntentDigest sha256 asked }

theorem digestFailures_askingFor (sha256 : Text → Bytes32) (minimum : ℤ) :
    digestFailures (askingFor sha256 intent minimum) sha256 = [] :=
  failIf_eq_nil.mpr (not_not.mpr rfl)

/-- No check compares a minimum with anything from below, zero apart. -/
theorem Cleared.askingFor (h : Cleared platform input) {minimum : ℤ} (hpos : 0 < minimum)
    (hle : minimum ≤ input.intent.minBuyAmountRaw)
    (hfresh : input.replayStore.isDigestConsumed
      (askingFor platform.sha256 input.intent minimum).intentDigest = false) :
    Cleared platform
      { input with intent := askingFor platform.sha256 input.intent minimum } where
  policy := h.policy
  identity := h.identity
  pair := h.pair
  amount := by
    obtain ⟨hsell,-,hcap⟩ := amountFailures_eq_nil.mp h.amount
    exact amountFailures_eq_nil.mpr ⟨hsell,hpos,hcap⟩
  value := h.value
  fee := h.fee
  slippage := h.slippage
  calldata := h.calldata
  selector := h.selector
  taker := h.taker
  registry := h.registry
  price := by
    obtain ⟨observed,maxAge,hobserved,hage,hsource,hprice⟩ := priceFailures_eq_nil.mp h.price
    obtain ⟨hsell,hbuy,hrefSell,hrefBuy,htime,hmin⟩ := observedPriceFailures_eq_nil.mp hprice
    exact priceFailures_eq_nil.mpr ⟨observed,maxAge,hobserved,hage,hsource,
      observedPriceFailures_eq_nil.mpr ⟨hsell,hbuy,hrefSell,hrefBuy,htime,hle.trans hmin⟩⟩
  expiry := h.expiry
  digest := digestFailures_askingFor platform.sha256 minimum
  replay := by
    have hreplay := h.replay
    simp only [replayFailures,List.append_eq_nil_iff,failIf_eq_nil] at hreplay ⊢
    exact ⟨by rw [hfresh]; decide,hreplay.2⟩

/-- A ready intent asks for at most the allowed deviation above the reference price.  It may
ask for any positive amount less: every smaller minimum whose own digest is unused is ready
as well. -/
theorem ready_minimum_bounded
    (h : (evaluateGuardedSettlement platform input).status = .readyOfflineOnly) :
    ∃ price, input.priceObservation = some price ∧ 0 < price.refSellAmountRaw ∧
      0 < price.refBuyAmountRaw ∧ 0 < input.intent.minBuyAmountRaw ∧
      input.intent.minBuyAmountRaw*price.refSellAmountRaw*10000 ≤
        price.refBuyAmountRaw*input.intent.sellAmountRaw*
          (10000+input.policy.maxPriceDeviationBps) ∧
      ∀ minimum, 0 < minimum → minimum ≤ input.intent.minBuyAmountRaw →
        input.replayStore.isDigestConsumed
          (askingFor platform.sha256 input.intent minimum).intentDigest = false →
        (evaluateGuardedSettlement platform
          { input with intent := askingFor platform.sha256 input.intent minimum }).status =
            .readyOfflineOnly := by
  have hc := ready_iff_cleared.mp h
  obtain ⟨hsell,hmin,-⟩ := amountFailures_eq_nil.mp hc.amount
  obtain ⟨price,maxAge,hobserved,-,-,hprice⟩ := priceFailures_eq_nil.mp hc.price
  obtain ⟨-,-,hrefSell,hrefBuy,-,hmax⟩ := observedPriceFailures_eq_nil.mp hprice
  refine ⟨price,hobserved,hrefSell,hrefBuy,hmin,?_,fun minimum hpos hle hfresh =>
    ready_iff_cleared.mpr (hc.askingFor hpos hle hfresh)⟩
  calc input.intent.minBuyAmountRaw*price.refSellAmountRaw*10000
      ≤ permittedMax input.policy input.intent price*price.refSellAmountRaw*10000 := by gcongr
    _ ≤ _ := permittedMax_mul_le hsell hrefSell hrefBuy (hmin.trans_le hmax)

theorem sampleInput_bounded : ∃ price,
    (sampleInput sampleIntent).priceObservation = some price ∧
    (sampleInput sampleIntent).intent.minBuyAmountRaw*price.refSellAmountRaw*10000 ≤
      price.refBuyAmountRaw*(sampleInput sampleIntent).intent.sellAmountRaw*
        (10000+(sampleInput sampleIntent).policy.maxPriceDeviationBps) := by
  obtain ⟨price,hprice,-,-,-,hbound,-⟩ := ready_minimum_bounded sampleInput_ready
  exact ⟨price,hprice,hbound⟩

/-- A minimum of one unit is ready where the reference price gives nine thousand. -/
theorem lowMinimum_ready : let input := sampleInput { sampleIntent with minBuyAmountRaw := 1 }
    (evaluateGuardedSettlement samplePlatform input).status = .readyOfflineOnly ∧
    ∃ price, input.priceObservation = some price ∧
      (input.intent.minBuyAmountRaw+2)*price.refSellAmountRaw*10000 <
        price.refBuyAmountRaw*input.intent.sellAmountRaw*
          (10000-input.policy.maxPriceDeviationBps) :=
  ⟨by decide +kernel,_,rfl,by decide⟩

end Price

section Deadline

variable {platform : Platform} {input : GuardedSettlementInput}

/-- The deadline lies within the policy's lifetime of the current time, and an execution at
that time with that deadline meets the executor's window. -/
def Executable (input : GuardedSettlementInput) : Prop :=
  0 ≤ input.intent.deadlineSec-input.nowSec ∧
  input.intent.deadlineSec-input.nowSec ≤ input.policy.maxIntentLifetimeSec ∧
  input.policy.maxIntentLifetimeSec ≤ 300 ∧
  ∀ (d : GuardedExecutor.Deployment) (b : GuardedExecutor.Behaviour) (w : GuardedExecutor.World)
    (sender : Address) (p : GuardedExecutor.SettlementParams),
    (w.timestamp : ℤ) = input.nowSec → (p.deadline : ℤ) = input.intent.deadlineSec →
    GuardedExecutor.executeSettlement d b w sender p ≠ .error .missingOrExpiredDeadline ∧
    GuardedExecutor.executeSettlement d b w sender p ≠ .error .deadlineTooFar

/-- The same input with another deadline, under its own digest, before a store of replays. -/
def lasting (platform : Platform) (input : GuardedSettlementInput) (deadline : ℤ)
    (replayStore : ReplayStore) : GuardedSettlementInput :=
  let timed := { input.intent with deadlineSec := deadline }
  { input with
    intent := { timed with intentDigest := computeIntentDigest platform.sha256 timed }
    replayStore := replayStore }

theorem digestFailures_lasting (deadline : ℤ) (replayStore : ReplayStore) :
    digestFailures (lasting platform input deadline replayStore).intent platform.sha256 = [] :=
  failIf_eq_nil.mpr (not_not.mpr rfl)

/-- No check but the one of the lifetime compares the deadline with the creation time. -/
theorem Cleared.lasting (h : Cleared platform input) (deadline : ℤ) (replayStore : ReplayStore)
    (hle : input.intent.deadlineSec ≤ deadline)
    (hlife : deadline-input.intent.createdAtSec ≤ input.policy.maxIntentLifetimeSec)
    (hfresh : replayFailures (lasting platform input deadline replayStore).intent replayStore = []) :
    Cleared platform (lasting platform input deadline replayStore) where
  policy := h.policy
  identity := h.identity
  pair := h.pair
  amount := h.amount
  value := h.value
  fee := h.fee
  slippage := h.slippage
  calldata := h.calldata
  selector := h.selector
  taker := h.taker
  registry := h.registry
  price := h.price
  expiry := by
    obtain ⟨hpos,hafter,-,hnow⟩ := expiryFailures_eq_nil.mp h.expiry
    refine expiryFailures_eq_nil.mpr ⟨hpos.trans_le hle,?_,hlife,hnow.trans hle⟩
    exact hafter.trans_le (Int.sub_le_sub_right hle _)
  digest := digestFailures_lasting deadline replayStore
  replay := hfresh

/-- The lifetime is bounded from the creation time on, so from the current time on as well
where that is not before it. -/
theorem Cleared.executable (h : Cleared platform input)
    (hpast : input.intent.createdAtSec ≤ input.nowSec) : Executable input := by
  have hbound := policyFailures_eq_nil h.policy
  obtain ⟨hpos,hlife,hmax,hnow⟩ := expiryFailures_eq_nil.mp h.expiry
  refine ⟨by omega,by omega,hbound.2,fun d b w sender p hw hp => ⟨?_,?_⟩⟩
  · exact GuardedExecutor.executeSettlement_ne_expired (by omega) (by omega)
  · apply GuardedExecutor.executeSettlement_ne_tooFar
    unfold GuardedExecutor.maxDeadlineHorizonSec
    omega

end Deadline

end GuardedSettlement
end BpsProtocol
