import BpsProtocol.AcquisitionPrice
import BpsProtocol.PriceGuardFloor

/-! The deviation band of an acquisition.
The expected amount is the floor of an exact quotient of the inputs.  The least accepted
minimum is a floor once more, so it can be below the band; it is never above the floor that
the on-chain guard asks for. -/
namespace BpsProtocol
namespace AcquisitionPrice

open Checked HexText Shared Binary64

section Reference

/-- The unit of a number of decimals. -/
def unit (n : Number) : ℚ := 10^(toNat? n).getD 0

/-- The dollar price of one output token in units of its feed. -/
def outputPrice (outF : UsdPriceObservation) (tokenState : StockTokenState) : ℚ :=
  match outF.semantics with
  | .perTokenChainlink => outF.answer
  | .rawUnderlying => outF.answer*tokenState.multiplierE18/10^18

/-- The exact worth of the sold amount in units of the bought token. -/
def reference (io : AcquisitionPriceInput) (inF outF : UsdPriceObservation)
    (tokenState : StockTokenState) : ℚ :=
  io.sellAmountRaw*inF.answer*unit outF.decimals*unit io.buyDecimals/
    (unit io.sellDecimals*unit inF.decimals*outputPrice outF tokenState)

variable {io : AcquisitionPriceInput} {inF outF : UsdPriceObservation}
  {tokenState : StockTokenState} {policy : PriceRiskPolicy} {p : PerToken} {n : Number} {k : ℤ}

theorem pow10_ok (h : pow10 n = .ok k) : (k : ℚ) = unit n ∧ 0 < k := by
  unfold pow10 at h
  split at h
  · rename_i d hd
    split at h
    · cases h
    · obtain rfl := Except.ok.inj h
      rw [unit,hd]
      exact ⟨by simp,by positivity⟩
  · cases h

/-- A quotient of integers without its fraction. -/
theorem tdiv_eq_floor {a b : ℤ} (ha : 0 ≤ a) (hb : 0 ≤ b) : a.tdiv b = ⌊(a : ℚ)/b⌋ := by
  rw [Int.tdiv_eq_ediv_of_nonneg ha,Int.floor_div_cast_of_nonneg hb,Int.floor_intCast]

theorem perToken_ok (h : perToken outF tokenState policy = .ok p) (hanswer : 0 < outF.answer)
    (hmultiplier : 0 < tokenState.multiplierE18) :
    0 < p.num ∧ 0 < p.den ∧ (p.num : ℚ)/p.den = outputPrice outF tokenState := by
  unfold perToken at h
  unfold outputPrice
  split at h
  · obtain rfl := Except.ok.inj h
    simp [*]
  · simp only [bind_eq_ok,revertIf_eq_ok,exists_const,pure_eq_ok] at h
    obtain ⟨-,rfl⟩ := h
    simp only [*,E18]
    exact ⟨mul_pos hanswer hmultiplier,by decide,by push_cast; norm_num⟩

/-- The expected amount is the floor of the exact worth. -/
theorem expectedAmount_ok {expected : ℤ} (h : expectedAmount io inF outF p = .ok expected)
    (hsell : 0 < io.sellAmountRaw) (hin : 0 < inF.answer) (hnum : 0 < p.num) (hden : 0 < p.den)
    (hprice : (p.num : ℚ)/p.den = outputPrice outF tokenState) :
    expected = ⌊reference io inF outF tokenState⌋ := by
  simp only [expectedAmount,bind_eq_ok,pure_eq_ok] at h
  obtain ⟨outFeedUnit,hout,buyUnit,hbuy,sellUnit,hsellUnit,inFeedUnit,hinUnit,rfl⟩ := h
  obtain ⟨hout,hout0⟩ := pow10_ok hout
  obtain ⟨hbuy,hbuy0⟩ := pow10_ok hbuy
  obtain ⟨hsellUnit,hsell0⟩ := pow10_ok hsellUnit
  obtain ⟨hinUnit,hin0⟩ := pow10_ok hinUnit
  have hden' : (p.den : ℚ) ≠ 0 := by exact_mod_cast hden.ne'
  rw [tdiv_eq_floor (by positivity) (by positivity),reference,← hprice,← hout,← hbuy,← hsellUnit,← hinUnit]
  congr 1
  push_cast
  field_simp

end Reference

section Deviation

variable {io : AcquisitionPriceInput} {inF outF : UsdPriceObservation}
  {tokenState : StockTokenState} {policy : PriceRiskPolicy} {sequencer : Option SequencerObservation}
  {r : PriceGuardResult}

theorem checkFeed_ok {feed : Option UsdPriceObservation} {f : UsdPriceObservation}
    {asset identity : Text} {semantics : PriceSemantics} {which : String} {now maxStaleness : ℤ}
    (h : checkFeed feed asset identity semantics which now maxStaleness = .ok f) :
    feed = some f ∧ 0 < f.answer ∧ 0 < f.roundId ∧ f.roundComplete = true ∧ 0 < f.updatedAtSec ∧
      f.updatedAtSec ≤ now ∧ now-f.updatedAtSec ≤ maxStaleness := by
  simp only [checkFeed,bind_eq_ok,orRevert_eq_ok,revertIf_eq_ok,exists_const,pure_eq_ok,
    not_lt,not_le] at h
  obtain ⟨f,hfeed,-,-,-,-,hanswer,-,hround,hcomplete,hupdated,hpast,hfresh,rfl⟩ := h
  exact ⟨hfeed,hanswer,hround,by simpa using hcomplete,hupdated,hpast,hfresh⟩

/-- What an accepted price says of its amounts. -/
structure Priced (io : AcquisitionPriceInput) (inF outF : UsdPriceObservation)
    (tokenState : StockTokenState) (policy : PriceRiskPolicy) (r : PriceGuardResult) : Prop where
  expected : r.expectedBuyAmountRaw = ⌊reference io inF outF tokenState⌋
  positive : 0 < r.expectedBuyAmountRaw
  minimum : 0 < io.minBuyAmountRaw
  allowed : minAllowedAmount r.expectedBuyAmountRaw policy.maxDeviationBps ≤ io.minBuyAmountRaw
  deviation : r.deviationBpsObserved = deviationBps r.expectedBuyAmountRaw io.minBuyAmountRaw

theorem validateAcquisitionPrice_ok (h : validateAcquisitionPrice io (some inF) (some outF)
    (some tokenState) sequencer (some policy) = .ok r) : Priced io inF outF tokenState policy r := by
  simp only [validateAcquisitionPrice,checkAmounts,bind_eq_ok,orRevert_eq_ok,revertIf_eq_ok,
    exists_const,pure_eq_ok,Option.some.injEq,exists_eq_left',not_le,not_lt,not_or] at h
  obtain ⟨_,-,inF',hin,outF',hout,⟨-,-,hmultiplier,⟨hsell,hminimum⟩,-,-⟩,p,hp,expected,hexpected,
    hpositive,hallowed,rfl⟩ := h
  obtain ⟨heq,hinAnswer,-⟩ := checkFeed_ok hin
  obtain ⟨heq',houtAnswer,-⟩ := checkFeed_ok hout
  obtain rfl := Option.some.inj heq
  obtain rfl := Option.some.inj heq'
  obtain ⟨hnum,hden,hprice⟩ := perToken_ok hp houtAnswer hmultiplier
  exact ⟨expectedAmount_ok hexpected hsell hinAnswer hnum hden hprice,hpositive,hminimum,hallowed,rfl⟩

/-- The shortfall is within the band where the minimum is above the exact fraction. -/
theorem within_band_iff {expected minimum bps : ℤ} (h : 0 < expected) (hminimum : 0 < minimum)
    (hallowed : minAllowedAmount expected bps ≤ minimum) :
    (deviationBps expected minimum ≤ bps ∧ (expected-minimum)*10000 ≤ expected*bps) ↔
      0 ≤ bps ∧ ¬(bps < 10000 ∧ ¬10000 ∣ expected*bps ∧
        minimum = expected*(10000-bps)/10000) := by
  have hdeviation : 0 ≤ deviationBps expected minimum := by
    unfold deviationBps
    split_ifs with hle
    · exact le_rfl
    · exact Int.tdiv_nonneg (mul_nonneg (by omega) (by decide)) h.le
  have hband : (expected-minimum)*10000 ≤ expected*bps → 0 ≤ bps →
      deviationBps expected minimum ≤ bps := by
    intro hshort hbps
    unfold deviationBps
    split_ifs with hle
    · exact hbps
    · rw [Int.tdiv_eq_ediv_of_nonneg (mul_nonneg (by omega) (by decide)),BPS]
      apply Int.ediv_le_of_le_mul h
      linarith
  have hexpand : expected*(10000-bps) = expected*10000-expected*bps := by ring
  constructor
  · rintro ⟨hle,hshort⟩
    refine ⟨hdeviation.trans hle,?_⟩
    rintro ⟨-,hfraction,hminimum⟩
    -- a quotient that is not whole is above its floor
    have hnot : ¬10000 ∣ expected*(10000-bps) := by
      rw [hexpand]
      omega
    omega
  · rintro ⟨hbps,hnot⟩
    have hshort : (expected-minimum)*10000 ≤ expected*bps := by
      by_cases hlarge : bps < 10000
      · have hpos : 0 ≤ expected*(10000-bps) := mul_nonneg h.le (by omega)
        rw [minAllowedAmount,BPS,Int.tdiv_eq_ediv_of_nonneg hpos] at hallowed
        by_contra hshort
        refine hnot ⟨hlarge,?_,?_⟩ <;> omega
      · have hall : expected*10000 ≤ expected*bps := mul_le_mul_of_nonneg_left (by omega) h.le
        linarith
    exact ⟨hband hshort hbps,hshort⟩

/-- For every accepted price: the reported deviation and the shortfall are within the policy's
band, unless the band is negative or the exact least minimum is a fraction and the quote's
minimum is that fraction rounded down. -/
theorem deviation_honoured_iff (h : validateAcquisitionPrice io (some inF) (some outF)
      (some tokenState) sequencer (some policy) = .ok r) :
    (r.deviationBpsObserved ≤ policy.maxDeviationBps ∧
      (r.expectedBuyAmountRaw-io.minBuyAmountRaw)*10000 ≤
        r.expectedBuyAmountRaw*policy.maxDeviationBps) ↔
    0 ≤ policy.maxDeviationBps ∧ ¬(policy.maxDeviationBps < 10000 ∧
      ¬10000 ∣ ⌊reference io inF outF tokenState⌋*policy.maxDeviationBps ∧
      io.minBuyAmountRaw =
        ⌊reference io inF outF tokenState⌋*(10000-policy.maxDeviationBps)/10000) := by
  have hpriced := validateAcquisitionPrice_ok h
  rw [← hpriced.expected,hpriced.deviation]
  exact within_band_iff hpriced.positive hpriced.minimum hpriced.allowed

def sampleObservation (name : String) (answer : ℤ) (decimals : Number) : UsdPriceObservation where
  semantics := .perTokenChainlink
  feedIdentity := name.toList
  asset := name.toList
  answer := answer
  decimals := decimals
  roundId := 1
  updatedAtSec := 950
  roundComplete := true
  observedAtBlock := 1

def sampleToken : StockTokenState := ⟨10^18,false,false⟩

def sampleSequencer : SequencerObservation := ⟨"UP".toList,0,1,1⟩

/-- One per cent. -/
def samplePolicy : PriceRiskPolicy :=
  ⟨900,100,10^18,"UP".toList,0,"WETH".toList,"NVDA".toList,.perTokenChainlink,false⟩

def sampleQuote (sellAmount minBuyAmount : ℤ) (decimals : Number) : AcquisitionPriceInput :=
  ⟨"WETH".toList,sellAmount,decimals,"NVDA".toList,minBuyAmount,decimals,1000⟩

/-- Tokens without decimals, and feeds that say one dollar. -/
def wholeNumber : Number := .finite (.ofInt 0 (by decide))

def tinyQuote : Except PriceGuardError PriceGuardResult :=
  validateAcquisitionPrice (sampleQuote 3 2 wholeNumber)
    (some (sampleObservation "WETH" 1 wholeNumber)) (some (sampleObservation "NVDA" 1 wholeNumber))
    (some sampleToken) (some sampleSequencer) (some samplePolicy)

/-- Two below three hundred, of which one per cent is a whole number. -/
def fairQuote : Except PriceGuardError PriceGuardResult :=
  validateAcquisitionPrice (sampleQuote 300 298 wholeNumber)
    (some (sampleObservation "WETH" 1 wholeNumber)) (some (sampleObservation "NVDA" 1 wholeNumber))
    (some sampleToken) (some sampleSequencer) (some samplePolicy)

theorem fairQuote_honoured :
    (∃ r, fairQuote = .ok r ∧
      (r.deviationBpsObserved ≤ 100 ∧
        (r.expectedBuyAmountRaw-298)*10000 ≤ r.expectedBuyAmountRaw*100) ∧
      (10000 ∣ ⌊reference (sampleQuote 300 298 wholeNumber)
          (sampleObservation "WETH" 1 wholeNumber) (sampleObservation "NVDA" 1 wholeNumber)
          sampleToken⌋*100 ∨
        298 ≠ ⌊reference (sampleQuote 300 298 wholeNumber)
          (sampleObservation "WETH" 1 wholeNumber) (sampleObservation "NVDA" 1 wholeNumber)
          sampleToken⌋*(10000-100)/10000)) ∧
    ∃ r, tinyQuote = .ok r ∧ ¬r.deviationBpsObserved ≤ 100 ∧
      2 = ⌊reference (sampleQuote 3 2 wholeNumber) (sampleObservation "WETH" 1 wholeNumber)
        (sampleObservation "NVDA" 1 wholeNumber) sampleToken⌋*(10000-100)/10000 := by
  have hfair : fairQuote.toOption.map
      (fun r => (r.deviationBpsObserved,r.expectedBuyAmountRaw)) = some (66,300) := by
    decide +kernel
  have htiny : tinyQuote.toOption.map PriceGuardResult.deviationBpsObserved = some 3333 := by
    decide +kernel
  obtain ⟨r,hr⟩ := exists_eq_ok (show fairQuote.isOk = true by decide +kernel)
  obtain ⟨r',hr'⟩ := exists_eq_ok (show tinyQuote.isOk = true by decide +kernel)
  rw [hr] at hfair
  rw [hr'] at htiny
  obtain ⟨hdeviation,hexpected⟩ := Prod.mk.inj (Option.some.inj hfair)
  have hdeviation' : r'.deviationBpsObserved = 3333 := Option.some.inj htiny
  have hhonoured : r.deviationBpsObserved ≤ 100 ∧
      (r.expectedBuyAmountRaw-298)*10000 ≤ r.expectedBuyAmountRaw*100 := by
    rw [hdeviation,hexpected]
    decide
  refine ⟨⟨r,hr,hhonoured,?_⟩,r',hr',by omega,?_⟩
  · obtain ⟨-,hcondition⟩ := (deviation_honoured_iff hr).1 hhonoured
    by_contra hnot
    rw [not_or,not_not] at hnot
    exact hcondition ⟨by decide,hnot⟩
  · by_contra hnot
    have hbad := (deviation_honoured_iff hr').2 ⟨by decide,fun h => hnot h.2.2⟩
    have hle : r'.deviationBpsObserved ≤ 100 := hbad.1
    omega

/-- Two for three expected is accepted, a third below, where one per cent is allowed. -/
theorem tinyQuote_beyond_band :
    ¬∀ (io : AcquisitionPriceInput) (inF outF : UsdPriceObservation) (tokenState : StockTokenState)
      (sequencer : Option SequencerObservation) (policy : PriceRiskPolicy) (r : PriceGuardResult),
      validateAcquisitionPrice io (some inF) (some outF) (some tokenState) sequencer
        (some policy) = .ok r →
      r.deviationBpsObserved ≤ policy.maxDeviationBps ∧
        (r.expectedBuyAmountRaw-io.minBuyAmountRaw)*10000 ≤
          r.expectedBuyAmountRaw*policy.maxDeviationBps := by
  intro h
  have hdeviation : tinyQuote.toOption.map PriceGuardResult.deviationBpsObserved = some 3333 := by
    decide +kernel
  have hok : tinyQuote.isOk = true := by decide +kernel
  obtain ⟨r,hr⟩ := exists_eq_ok hok
  have hle := (h _ _ _ _ _ _ r hr).1
  rw [hr] at hdeviation
  rw [Option.some.inj hdeviation] at hle
  exact absurd hle (by decide)

end Deviation

section OnChain

open PriceGuard MerkleProof

variable {g : Guard} {sellAmount minBuyAmount wethUsd nvdaUsd maxDeviationBps : ℕ}
  {io : AcquisitionPriceInput} {inF outF : UsdPriceObservation} {tokenState : StockTokenState}
  {policy : PriceRiskPolicy} {sequencer : Option SequencerObservation} {e : PriceGuardError}

/-- Both validators see the same readings, decimals, amounts and deviation. -/
structure SameQuote (g : Guard) (sellAmount minBuyAmount wethUsd nvdaUsd maxDeviationBps : ℕ)
    (io : AcquisitionPriceInput) (inF outF : UsdPriceObservation) (policy : PriceRiskPolicy) :
    Prop where
  semantics : outF.semantics = .perTokenChainlink
  sellAmount : io.sellAmountRaw = sellAmount
  minBuyAmount : io.minBuyAmountRaw = minBuyAmount
  inAnswer : inF.answer = wethUsd
  outAnswer : outF.answer = nvdaUsd
  sellDecimals : io.sellDecimals = .ofRat g.wethTokenDecimals
  buyDecimals : io.buyDecimals = .ofRat g.nvdaTokenDecimals
  inDecimals : inF.decimals = .ofRat g.wethFeedDecimals
  outDecimals : outF.decimals = .ofRat g.nvdaFeedDecimals
  deviation : policy.maxDeviationBps = maxDeviationBps

theorem toNat?_ofRat {n : ℕ} (h : n ≤ 18) : toNat? (.ofRat n) = some n := by
  have habs : |(n : ℤ)| ≤ 2^53 := by
    rw [abs_of_nonneg (Int.natCast_nonneg n)]
    omega
  have hround := Number.ofRat_intCast habs
  rw [Int.cast_natCast] at hround
  rw [hround]
  simp [toNat?,Double.ofInt]

theorem unit_ofRat {n : ℕ} (h : n ≤ 18) : unit (.ofRat n) = 10^n := by
  rw [unit,toNat?_ofRat h]
  rfl

/-- The exact floor of the guard is the exact worth, reduced by the deviation. -/
theorem SameQuote.exactFloor_eq (h : SameQuote g sellAmount minBuyAmount wethUsd nvdaUsd
    maxDeviationBps io inF outF policy) (hdeviation : maxDeviationBps ≤ 100) :
    g.exactFloor sellAmount wethUsd nvdaUsd maxDeviationBps =
      reference io inF outF tokenState*(10000-maxDeviationBps)/10000 := by
  have hdecimals := g.decimals
  simp only [List.forall_mem_cons] at hdecimals
  obtain ⟨hwf,hnf,hwt,hnt,-⟩ := hdecimals
  have hdev : PriceGuard.deviation maxDeviationBps = maxDeviationBps := by
    rw [deviation_eq_min]
    exact min_eq_left hdeviation
  rw [reference,outputPrice,h.semantics,h.sellAmount,h.inAnswer,h.outAnswer,h.sellDecimals,
    h.buyDecimals,h.inDecimals,h.outDecimals,unit_ofRat hwf.2,unit_ofRat hnf.2,unit_ofRat hwt.2,
    unit_ofRat hnt.2,Guard.exactFloor,Guard.scaleUp,Guard.denominator,hdev]
  push_cast [Nat.cast_sub (hdeviation.trans (by decide) : maxDeviationBps ≤ 10000)]
  rw [pow_add]
  field_simp

theorem checkSequencer_ne {message : Text} : checkSequencer sequencer policy io.nowSec ≠
    .error ⟨.deviationExceeded,message⟩ := by
  simp [checkSequencer,bind_eq_error,revertIf_eq_error,orRevert_eq_error,priceGuardError]

theorem checkFeed_ne {feed : Option UsdPriceObservation} {asset identity message : Text}
    {semantics : PriceSemantics} {which : String} {now maxStaleness : ℤ} :
    checkFeed feed asset identity semantics which now maxStaleness ≠
      .error ⟨.deviationExceeded,message⟩ := by
  simp [checkFeed,bind_eq_error,revertIf_eq_error,orRevert_eq_error,map_eq_error,feedError]

theorem checkAmounts_ne {message : Text} : checkAmounts io tokenState policy ≠
    .error ⟨.deviationExceeded,message⟩ := by
  simp [checkAmounts,bind_eq_error,revertIf_eq_error,priceGuardError]

theorem pow10_ne {n : Number} {message : Text} : pow10 n ≠ .error ⟨.deviationExceeded,message⟩ := by
  unfold pow10
  split
  · split <;> simp
  · simp

theorem expectedAmount_ne {p : PerToken} {message : Text} :
    expectedAmount io inF outF p ≠ .error ⟨.deviationExceeded,message⟩ := by
  simp [expectedAmount,bind_eq_error,pow10_ne,map_eq_error]

theorem perToken_ne {message : Text} : perToken outF tokenState policy ≠
    .error ⟨.deviationExceeded,message⟩ := by
  unfold perToken
  split <;> simp [map_eq_error,revertIf_eq_error,priceGuardError]

/-- A rejection for deviation comes after all other checks, and compares the exact worth. -/
theorem validateAcquisitionPrice_deviation {message : Text}
    (h : validateAcquisitionPrice io (some inF) (some outF) (some tokenState) sequencer
      (some policy) = .error ⟨.deviationExceeded,message⟩) :
    ⌊reference io inF outF tokenState⌋ ≤ 0 ∨ io.minBuyAmountRaw <
      minAllowedAmount ⌊reference io inF outF tokenState⌋ policy.maxDeviationBps := by
  simp only [validateAcquisitionPrice,bind_eq_error,checkSequencer_ne,checkFeed_ne,
    checkAmounts_ne,perToken_ne,expectedAmount_ne,orRevert_eq_error,orRevert_eq_ok,pure_eq_error,
    revertIf_eq_error,revertIf_eq_ok,reduceCtorEq,false_and,false_or,or_false,and_false,
    exists_false,Option.some.injEq,exists_eq_left'] at h
  obtain ⟨_,-,inF',hin,outF',hout,_,hamounts,p,hp,expected,hexpected,h⟩ := h
  obtain ⟨heq,hinAnswer,-⟩ := checkFeed_ok hin
  obtain ⟨heq',houtAnswer,-⟩ := checkFeed_ok hout
  obtain rfl := Option.some.inj heq
  obtain rfl := Option.some.inj heq'
  simp only [checkAmounts,bind_eq_ok,revertIf_eq_ok,exists_const,not_le,not_or] at hamounts
  obtain ⟨-,-,hmultiplier,⟨hsell,-⟩,-,-⟩ := hamounts
  obtain ⟨hnum,hden,hprice⟩ := perToken_ok hp houtAnswer hmultiplier
  have hfloor := expectedAmount_ok hexpected hsell hinAnswer hnum hden hprice
  rw [← hfloor]
  rcases h with ⟨hle,-⟩ | ⟨_,-,hlt,-⟩
  · exact Or.inl hle
  · exact Or.inr hlt

/-- A floor of a part of a floor is at most the part. -/
theorem minAllowedAmount_le {q : ℚ} {bps : ℕ} (hq : 0 ≤ ⌊q⌋) (hbps : bps ≤ 10000) :
    (minAllowedAmount ⌊q⌋ bps : ℚ) ≤ q*(10000-bps)/10000 := by
  have hpart : (0 : ℤ) ≤ BPS-bps := by
    rw [BPS]
    omega
  have hpart' : (0 : ℚ) ≤ (10000-bps)/10000 := by
    have hcast : (bps : ℚ) ≤ (10000 : ℕ) := Nat.cast_le.2 hbps
    rw [Nat.cast_ofNat] at hcast
    linarith
  rw [minAllowedAmount,tdiv_eq_floor (mul_nonneg hq hpart) (by decide)]
  calc ((⌊((⌊q⌋*(BPS-bps) : ℤ) : ℚ)/(BPS : ℚ)⌋ : ℤ) : ℚ)
      ≤ ((⌊q⌋*(BPS-bps) : ℤ) : ℚ)/(BPS : ℚ) := Int.floor_le _
    _ = ⌊q⌋*((10000-bps)/10000) := by
      rw [BPS]
      push_cast
      ring
    _ ≤ q*((10000-bps)/10000) := mul_le_mul_of_nonneg_right (Int.floor_le q) hpart'
    _ = q*(10000-bps)/10000 := by ring

theorem exactFloor_le (hn : 0 < nvdaUsd) :
    g.exactFloor sellAmount wethUsd nvdaUsd maxDeviationBps ≤
      g.floorAmount sellAmount wethUsd nvdaUsd maxDeviationBps := by
  have hd := g.denominator_pos hn
  have hle : sellAmount*wethUsd*g.scaleUp*(10000-PriceGuard.deviation maxDeviationBps) ≤
      g.floorAmount sellAmount wethUsd nvdaUsd maxDeviationBps*10000*10^g.wethTokenDecimals*
        g.denominator nvdaUsd := g.le_floorAmount hn
  have hcast : ((sellAmount*wethUsd*g.scaleUp*
      (10000-PriceGuard.deviation maxDeviationBps) : ℕ) : ℚ) ≤ _ := Nat.cast_le.2 hle
  rw [Guard.exactFloor,div_le_iff₀ (by positivity)]
  push_cast at hcast ⊢
  linarith

/-- What the on-chain guard accepts with a deviation of at most one per cent is never rejected
off chain for its deviation, where the expected amount is not zero: the off-chain minimum is
at most the exact floor, and that at most the on-chain floor. -/
theorem onChain_accepts_offChain {keccak256 : Hash} {chain : Chain}
    {sellToken buyToken : Address} (hread : readAnswers keccak256 g chain = .ok (wethUsd,nvdaUsd))
    (haccept : check keccak256 g chain sellToken buyToken sellAmount minBuyAmount
      maxDeviationBps = .ok ())
    (hdeviation : maxDeviationBps ≤ 100)
    (hsame : SameQuote g sellAmount minBuyAmount wethUsd nvdaUsd maxDeviationBps io inF outF policy)
    (hexpected : 1 ≤ ⌊reference io inF outF tokenState⌋) :
    (∀ message, validateAcquisitionPrice io (some inF) (some outF) (some tokenState) sequencer
      (some policy) ≠ .error ⟨.deviationExceeded,message⟩) ∧
    (minAllowedAmount ⌊reference io inF outF tokenState⌋ policy.maxDeviationBps : ℚ) ≤
      g.exactFloor sellAmount wethUsd nvdaUsd maxDeviationBps ∧
    g.exactFloor sellAmount wethUsd nvdaUsd maxDeviationBps ≤
      g.floorAmount sellAmount wethUsd nvdaUsd maxDeviationBps := by
  have hn := readAnswers_pos hread
  have hfloor := ((check_eq_ok hread).1 haccept).2.2
  have hmin : (minAllowedAmount ⌊reference io inF outF tokenState⌋ policy.maxDeviationBps : ℚ) ≤
      g.exactFloor sellAmount wethUsd nvdaUsd maxDeviationBps := by
    have hworth : g.exactFloor sellAmount wethUsd nvdaUsd maxDeviationBps =
        reference io inF outF tokenState*(10000-maxDeviationBps)/10000 :=
      hsame.exactFloor_eq hdeviation
    rw [hworth,hsame.deviation]
    exact minAllowedAmount_le (by omega) (by omega)
  have hexact : g.exactFloor sellAmount wethUsd nvdaUsd maxDeviationBps ≤
      g.floorAmount sellAmount wethUsd nvdaUsd maxDeviationBps := exactFloor_le hn
  refine ⟨fun message hreject => ?_,hmin,hexact⟩
  have hle : ((minAllowedAmount ⌊reference io inF outF tokenState⌋ policy.maxDeviationBps : ℤ) : ℚ) ≤
      (minBuyAmount : ℤ) := by
    calc _ ≤ _ := hmin.trans hexact
      _ ≤ ((minBuyAmount : ℤ) : ℚ) := by exact_mod_cast hfloor
  rcases validateAcquisitionPrice_deviation hreject with hzero | hlt
  · omega
  · rw [hsame.minBuyAmount] at hlt
    exact absurd (Int.cast_le.1 hle) (not_le.2 hlt)

/-- One hundredth of a WETH at twenty for one, and the least minimum on chain. -/
theorem sampleQuote_accepted :
    check toyHash sampleGuard sampleChain 1 2 10000000000000000 198000000000000000 100 = .ok () ∧
    ∀ message, validateAcquisitionPrice
      (sampleQuote 10000000000000000 198000000000000000 (.ofRat (18 : ℕ)))
      (some (sampleObservation "WETH" 300000000000 (.ofRat (8 : ℕ))))
      (some (sampleObservation "NVDA" 15000000000 (.ofRat (8 : ℕ)))) (some sampleToken)
      (some sampleSequencer) (some samplePolicy) ≠ .error ⟨.deviationExceeded,message⟩ := by
  have hread : readAnswers toyHash sampleGuard sampleChain = .ok (300000000000,15000000000) := rfl
  have haccept : check toyHash sampleGuard sampleChain 1 2 10000000000000000
      198000000000000000 100 = .ok () := by decide +kernel
  have hsame : SameQuote sampleGuard 10000000000000000 198000000000000000 300000000000 15000000000
      100 (sampleQuote 10000000000000000 198000000000000000 (.ofRat (18 : ℕ)))
      (sampleObservation "WETH" 300000000000 (.ofRat (8 : ℕ)))
      (sampleObservation "NVDA" 15000000000 (.ofRat (8 : ℕ))) samplePolicy :=
    ⟨rfl,rfl,rfl,rfl,rfl,rfl,rfl,rfl,rfl,rfl⟩
  have hreference : reference (sampleQuote 10000000000000000 198000000000000000 (.ofRat (18 : ℕ)))
      (sampleObservation "WETH" 300000000000 (.ofRat (8 : ℕ)))
      (sampleObservation "NVDA" 15000000000 (.ofRat (8 : ℕ))) sampleToken = (200000000000000000 : ℤ) := by
    have h18 : unit (.ofRat (18 : ℕ)) = 10^18 := unit_ofRat (by decide)
    have h8 : unit (.ofRat (8 : ℕ)) = 10^8 := unit_ofRat (by decide)
    simp only [reference,outputPrice,sampleQuote,sampleObservation,h18,h8]
    norm_num
  refine ⟨haccept,(onChain_accepts_offChain hread haccept (by decide) hsame ?_).1⟩
  rw [hreference,Int.floor_intCast]
  decide

end OnChain

end AcquisitionPrice
end BpsProtocol
