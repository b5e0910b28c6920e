import BpsProtocol.Lib.NumberText
import BpsProtocol.Shared

/-! `validateAcquisitionPrice`: a quote's minimum against two price observations.
A bigint is an integer and its division drops the fraction; decimals are numbers, and a
power of ten is taken only of an integer up to 77. -/
namespace BpsProtocol
namespace AcquisitionPrice

open Checked HexText Shared Binary64 NumberText

inductive PriceGuardErrorCode
  | pricePolicyMissing
  | priceFeedMissing
  | semanticsMismatch
  | rawUnderlyingNotApproved
  | nonPositiveAnswer
  | staleAnswer
  | incompleteRound
  | badDecimals
  | oraclePaused
  | multiplierMissing
  | multiplierTransition
  | assetBindingMismatch
  | feedIdentityMismatch
  | feedBindingMissing
  | zeroRound
  | amountOutOfDomain
  | sequencerPolicyMissing
  | sequencerDown
  | sequencerGracePeriod
  | sequencerBadRound
  | txCapExceeded
  | deviationExceeded
  | unsafeNumber
  deriving DecidableEq

/-- The message is what follows the code and a colon. -/
structure PriceGuardError where
  code : PriceGuardErrorCode
  message : Text
  deriving DecidableEq

/-- `new PriceGuardError(code, message)` -/
def priceGuardError (code : PriceGuardErrorCode) (message : String) : PriceGuardError :=
  ⟨code,message.toList⟩

/-- An error whose message starts with the side of the pair. -/
def feedError (code : PriceGuardErrorCode) (which message : String) : PriceGuardError :=
  ⟨code,which.toList ++ message.toList⟩

inductive PriceSemantics
  | perTokenChainlink
  | rawUnderlying
  deriving DecidableEq

def PriceSemantics.text : PriceSemantics → String
  | .perTokenChainlink => "PER_TOKEN_CHAINLINK"
  | .rawUnderlying => "RAW_UNDERLYING"

structure UsdPriceObservation where
  semantics : PriceSemantics
  feedIdentity : Text
  asset : Text
  answer : ℤ
  decimals : Number
  roundId : ℤ
  updatedAtSec : ℤ
  roundComplete : Bool
  observedAtBlock : ℤ

structure StockTokenState where
  multiplierE18 : ℤ
  transitionPending : Bool
  oraclePaused : Bool

structure SequencerObservation where
  feedIdentity : Text
  answer : ℤ
  startedAtSec : ℤ
  updatedAtSec : ℤ

structure PriceRiskPolicy where
  maxStalenessSec : ℤ
  maxDeviationBps : ℤ
  maxTxInputRaw : ℤ
  sequencerFeedIdentity : Text
  sequencerGraceSec : ℤ
  inputFeedIdentity : Text
  outputFeedIdentity : Text
  outputSemantics : PriceSemantics
  allowRawUnderlyingForEvidence : Bool

structure AcquisitionPriceInput where
  sellToken : Text
  sellAmountRaw : ℤ
  sellDecimals : Number
  buyToken : Text
  minBuyAmountRaw : ℤ
  buyDecimals : Number
  nowSec : ℤ

structure FeedJustification where
  answer : Text
  decimals : Number
  updatedAtSec : Text
  block : Text
  deriving DecidableEq

structure Justification where
  inputFeed : FeedJustification
  outputFeed : FeedJustification
  outputSemantics : PriceSemantics
  multiplierE18 : Text
  multiplierApplied : Bool
  deriving DecidableEq

structure PriceGuardResult where
  expectedBuyAmountRaw : ℤ
  minAllowedBuyAmountRaw : ℤ
  deviationBpsObserved : ℤ
  justification : Justification
  deriving DecidableEq

def BPS : ℤ := 10000
def E18 : ℤ := 10^18
def MAX_UINT256 : ℤ := 2^256-1

/-- The natural number that a number is, if any. -/
def toNat? : Number → Option ℕ
  | .finite x => if x.val.den = 1 ∧ 0 ≤ x.val.num then some x.val.num.toNat else none
  | _ => none

def pow10 (n : Number) : Except PriceGuardError ℤ :=
  match toNat? n with
  | some k =>
    if 77 < k then .error ⟨.badDecimals,"decimals out of safe range: ".toList ++ toText n⟩
    else .ok (10^k)
  | none => .error ⟨.badDecimals,"decimals out of safe range: ".toList ++ toText n⟩

def checkFeed (feed : Option UsdPriceObservation) (expectedAsset expectedIdentity : Text)
    (expectedSemantics : PriceSemantics) (which : String) (nowSec maxStalenessSec : ℤ) :
    Except PriceGuardError UsdPriceObservation := do
  let feed ← orRevert (feedError .priceFeedMissing which " feed is not configured") feed
  revertIf (expectedIdentity = [])
    (feedError .feedBindingMissing which " feed identity is not pinned by policy")
  revertIf (feed.feedIdentity ≠ expectedIdentity) (feedError .feedIdentityMismatch which
    " observation is not from the policy-pinned feed identity (no relabeling)")
  revertIf (feed.semantics ≠ expectedSemantics) ⟨.semanticsMismatch,which.toList ++
    " feed semantics ".toList ++ feed.semantics.text.toList ++ " != policy-declared ".toList ++
    expectedSemantics.text.toList⟩
  revertIf (toLowerCase feed.asset ≠ toLowerCase expectedAsset) ⟨.assetBindingMismatch,
    which.toList ++ " feed prices ".toList ++ feed.asset ++ ", not ".toList ++ expectedAsset⟩
  revertIf (feed.answer ≤ 0) (feedError .nonPositiveAnswer which " answer must be positive")
  revertIf (MAX_UINT256 < feed.answer)
    (feedError .amountOutOfDomain which " answer exceeds the uint256 domain")
  revertIf (feed.roundId ≤ 0) (feedError .zeroRound which " roundId must be positive")
  revertIf (feed.roundComplete = false) (feedError .incompleteRound which " round is incomplete")
  revertIf (feed.updatedAtSec ≤ 0)
    (feedError .incompleteRound which " updatedAt must be positive")
  revertIf (nowSec < feed.updatedAtSec)
    (feedError .unsafeNumber which " feed timestamp is in the future")
  revertIf (maxStalenessSec < nowSec-feed.updatedAtSec) (feedError .staleAnswer which
    (" answer exceeds the approved staleness (tokenized-equity feeds hold values off-hours; " ++
      "the published freshness limit governs)"))
  return feed

def checkSequencer (seq : Option SequencerObservation) (policy : PriceRiskPolicy) (nowSec : ℤ) :
    Except PriceGuardError Unit := do
  revertIf (policy.sequencerFeedIdentity = [] ∨ policy.sequencerGraceSec < 0)
    (priceGuardError .sequencerPolicyMissing
      "no approved sequencer feed identity / grace period is configured (fail closed)")
  let seq ← orRevert
    (priceGuardError .sequencerPolicyMissing "sequencer observation unavailable") seq
  revertIf (toLowerCase seq.feedIdentity ≠ toLowerCase policy.sequencerFeedIdentity)
    (priceGuardError .sequencerPolicyMissing
      "sequencer observation is not from the configured feed identity (no substitution)")
  revertIf (seq.startedAtSec ≤ 0 ∨ seq.updatedAtSec ≤ 0 ∨ nowSec < seq.startedAtSec)
    (priceGuardError .sequencerBadRound "sequencer round data invalid")
  revertIf (seq.answer ≠ 0) (priceGuardError .sequencerDown "sequencer is not up")
  revertIf (nowSec-seq.startedAtSec < policy.sequencerGraceSec)
    (priceGuardError .sequencerGracePeriod
      "sequencer recovered too recently — configured grace period has not elapsed")

/-- The checks of the token's state and of the amounts. -/
def checkAmounts (io : AcquisitionPriceInput) (tokenState : StockTokenState)
    (policy : PriceRiskPolicy) : Except PriceGuardError Unit := do
  revertIf (tokenState.oraclePaused = true) (priceGuardError .oraclePaused
    "oraclePaused() is true — price is unavailable during a corporate action")
  revertIf (tokenState.transitionPending = true) (priceGuardError .multiplierTransition
    "pending multiplier transition — no approved transition rule exists (fail closed)")
  revertIf (tokenState.multiplierE18 ≤ 0)
    (priceGuardError .multiplierMissing "multiplier must be positive")
  revertIf (io.sellAmountRaw ≤ 0 ∨ io.minBuyAmountRaw ≤ 0)
    (priceGuardError .unsafeNumber "amounts must be positive integers")
  revertIf (MAX_UINT256 < io.sellAmountRaw ∨ MAX_UINT256 < io.minBuyAmountRaw)
    (priceGuardError .amountOutOfDomain "amount exceeds the uint256 domain")
  revertIf (policy.maxTxInputRaw < io.sellAmountRaw)
    (priceGuardError .txCapExceeded "input exceeds the approved per-transaction cap")

/-- The price of the output asset as a fraction, and whether the multiplier was applied. -/
structure PerToken where
  num : ℤ
  den : ℤ
  multiplierApplied : Bool

def perToken (outF : UsdPriceObservation) (tokenState : StockTokenState)
    (policy : PriceRiskPolicy) : Except PriceGuardError PerToken :=
  match outF.semantics with
  | .perTokenChainlink => .ok ⟨outF.answer,1,false⟩
  | .rawUnderlying => do
    revertIf (policy.allowRawUnderlyingForEvidence = false)
      (priceGuardError .rawUnderlyingNotApproved
        "raw-underlying pricing is not approved for this configuration (fail closed)")
    return ⟨outF.answer*tokenState.multiplierE18,E18,true⟩

/-- `expected`: one division after all factors. -/
def expectedAmount (io : AcquisitionPriceInput) (inF outF : UsdPriceObservation) (p : PerToken) :
    Except PriceGuardError ℤ := do
  let outFeedUnit ← pow10 outF.decimals
  let buyUnit ← pow10 io.buyDecimals
  let numerator := io.sellAmountRaw*inF.answer*outFeedUnit*buyUnit*p.den
  let sellUnit ← pow10 io.sellDecimals
  let inFeedUnit ← pow10 inF.decimals
  let denominator := sellUnit*inFeedUnit*p.num
  return numerator.tdiv denominator

def minAllowedAmount (expected maxDeviationBps : ℤ) : ℤ := (expected*(BPS-maxDeviationBps)).tdiv BPS

def deviationBps (expected minBuyAmountRaw : ℤ) : ℤ :=
  if expected ≤ minBuyAmountRaw then 0 else ((expected-minBuyAmountRaw)*BPS).tdiv expected

def justify (f : UsdPriceObservation) : FeedJustification :=
  ⟨toString10 f.answer,f.decimals,toString10 f.updatedAtSec,toString10 f.observedAtBlock⟩

def validateAcquisitionPrice (io : AcquisitionPriceInput)
    (inputFeed outputFeed : Option UsdPriceObservation) (tokenState : Option StockTokenState)
    (sequencer : Option SequencerObservation) (policy : Option PriceRiskPolicy) :
    Except PriceGuardError PriceGuardResult := do
  let policy ← orRevert (priceGuardError .pricePolicyMissing
    ("no approved staleness/deviation/cap/sequencer policy exists — " ++
      "fail closed (decision pack)")) policy
  checkSequencer sequencer policy io.nowSec
  let inF ← checkFeed inputFeed io.sellToken policy.inputFeedIdentity .perTokenChainlink "input"
    io.nowSec policy.maxStalenessSec
  let outF ← checkFeed outputFeed io.buyToken policy.outputFeedIdentity policy.outputSemantics
    "output" io.nowSec policy.maxStalenessSec
  let tokenState ← orRevert
    (priceGuardError .multiplierMissing "stock token state unavailable") tokenState
  checkAmounts io tokenState policy
  let p ← perToken outF tokenState policy
  let expected ← expectedAmount io inF outF p
  revertIf (expected ≤ 0)
    (priceGuardError .deviationExceeded "expected output floors to zero")
  let minAllowed := minAllowedAmount expected policy.maxDeviationBps
  revertIf (io.minBuyAmountRaw < minAllowed) (priceGuardError .deviationExceeded
    ("quoted minimum output is below the approved deviation band vs the independent " ++
      "reference"))
  return {
    expectedBuyAmountRaw := expected
    minAllowedBuyAmountRaw := minAllowed
    deviationBpsObserved := deviationBps expected io.minBuyAmountRaw
    justification := {
      inputFeed := justify inF
      outputFeed := justify outF
      outputSemantics := outF.semantics
      multiplierE18 := toString10 tokenState.multiplierE18
      multiplierApplied := p.multiplierApplied } }

end AcquisitionPrice
end BpsProtocol
