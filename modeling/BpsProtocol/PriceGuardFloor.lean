import BpsProtocol.PriceGuard
import Mathlib.Tactic.FieldSimp

/-! Exactness of the price floor.
Each of the three divisions rounds up, so an accepted minimum is worth at least the exact
floor; each adds less than one unit of its own, so a minimum a little above the exact floor
is never below the computed one. -/
namespace BpsProtocol
namespace PriceGuard

open Checked MerkleProof

section Floor

variable (g : Guard) (sellAmount wethUsd nvdaUsd maxDeviationBps : ℕ)

/-- The exact values of the computation. -/
def Guard.usdScaled : ℕ := sellAmount*wethUsd ⌈/⌉ 10^g.wethTokenDecimals

def Guard.scaleUp : ℕ := 10^(g.nvdaFeedDecimals+g.nvdaTokenDecimals)

def Guard.denominator : ℕ := 10^g.wethFeedDecimals*nvdaUsd

def Guard.fairOut : ℕ :=
  g.usdScaled sellAmount wethUsd*g.scaleUp ⌈/⌉ g.denominator nvdaUsd

def Guard.floorAmount : ℕ :=
  g.fairOut sellAmount wethUsd nvdaUsd*(10000-deviation maxDeviationBps) ⌈/⌉ 10000

/-- No value of the computation passes `type(uint256).max`. -/
structure Guard.Fits : Prop where
  usdScaled : g.usdScaled sellAmount wethUsd < wordBound
  denominator : g.denominator nvdaUsd < wordBound
  fairOut : g.fairOut sellAmount wethUsd nvdaUsd < wordBound
  floorAmount : g.floorAmount sellAmount wethUsd nvdaUsd maxDeviationBps < wordBound

/-- The exact floor, as a fraction. -/
def Guard.exactFloor : ℚ :=
  sellAmount*wethUsd*g.scaleUp*(10000-deviation maxDeviationBps : ℕ)/
    (10000*10^g.wethTokenDecimals*g.denominator nvdaUsd)

/-- What a unit of the dollar amount is worth in units of the stock. -/
def Guard.unitWorth : ℚ := g.scaleUp/g.denominator nvdaUsd

end Floor

variable {g : Guard} {sellAmount sellAmount' wethUsd nvdaUsd maxDeviationBps floorAmount : ℕ}

theorem Guard.denominator_pos (hn : 0 < nvdaUsd) : 0 < g.denominator nvdaUsd :=
  Nat.mul_pos (Nat.pow_pos (by decide)) hn

theorem deviation_eq_min (n : ℕ) : deviation n = min n maxDeviationCeilingBps := by
  unfold deviation
  by_cases h : n < maxDeviationCeilingBps
  · rw [if_pos h,min_eq_left h.le]
  · rw [if_neg h,min_eq_right (Nat.le_of_not_lt h)]

theorem oracleFloor_eq_ok (hn : 0 < nvdaUsd) :
    oracleFloor g sellAmount wethUsd nvdaUsd maxDeviationBps = .ok floorAmount ↔
      g.Fits sellAmount wethUsd nvdaUsd maxDeviationBps ∧
      g.floorAmount sellAmount wethUsd nvdaUsd maxDeviationBps = floorAmount := by
  have hpow : 0 < 10^g.wethTokenDecimals := Nat.pow_pos (by decide)
  have hd := g.denominator_pos hn
  unfold oracleFloor
  simp only [bind_eq_ok,mulDivCeil_eq_ok hpow,mul_eq_ok]
  constructor
  · rintro ⟨_,⟨husd,rfl⟩,_,⟨hden,rfl⟩,_,hf,hm⟩
    obtain ⟨hfair,rfl⟩ := (mulDivCeil_eq_ok hd).mp hf
    obtain ⟨hfloor,rfl⟩ := (mulDivCeil_eq_ok (by decide)).mp hm
    exact ⟨⟨husd,hden,hfair,hfloor⟩,rfl⟩
  · rintro ⟨hfits,rfl⟩
    exact ⟨_,⟨hfits.usdScaled,rfl⟩,_,⟨hfits.denominator,rfl⟩,_,
      (mulDivCeil_eq_ok hd).mpr ⟨hfits.fairOut,rfl⟩,
      (mulDivCeil_eq_ok (by decide)).mpr ⟨hfits.floorAmount,rfl⟩⟩

/-- A computation of the floor that fails does so by a panic. -/
theorem oracleFloor_error {e : Error}
    (h : oracleFloor g sellAmount wethUsd nvdaUsd maxDeviationBps = .error e) : e = .panic := by
  simp only [oracleFloor,bind_eq_error] at h
  rcases h with h | ⟨_,-,h | ⟨_,-,h | ⟨_,-,h⟩⟩⟩
  · exact mulDivCeil_error h
  · exact mul_error h
  · exact mulDivCeil_error h
  · exact mulDivCeil_error h

/-- Each ceiling is at least its quotient, so the floor is at least the exact one. -/
theorem Guard.le_floorAmount (hn : 0 < nvdaUsd) :
    sellAmount*wethUsd*g.scaleUp*(10000-deviation maxDeviationBps) ≤
      g.floorAmount sellAmount wethUsd nvdaUsd maxDeviationBps*10000*10^g.wethTokenDecimals*
        g.denominator nvdaUsd := by
  have hd := g.denominator_pos hn
  have husd : sellAmount*wethUsd ≤ g.usdScaled sellAmount wethUsd*10^g.wethTokenDecimals :=
    le_ceilDiv _ (Nat.pow_pos (by decide))
  have hfair : g.usdScaled sellAmount wethUsd*g.scaleUp ≤
      g.fairOut sellAmount wethUsd nvdaUsd*g.denominator nvdaUsd := le_ceilDiv _ hd
  have hfloor : g.fairOut sellAmount wethUsd nvdaUsd*(10000-deviation maxDeviationBps) ≤
      g.floorAmount sellAmount wethUsd nvdaUsd maxDeviationBps*10000 := le_ceilDiv _ (by decide)
  set u := g.usdScaled sellAmount wethUsd
  set f := g.fairOut sellAmount wethUsd nvdaUsd
  set k := 10000-deviation maxDeviationBps
  set m := g.floorAmount sellAmount wethUsd nvdaUsd maxDeviationBps
  calc sellAmount*wethUsd*g.scaleUp*k
      ≤ u*10^g.wethTokenDecimals*g.scaleUp*k := by gcongr
    _ = u*g.scaleUp*(10^g.wethTokenDecimals*k) := by ring
    _ ≤ f*g.denominator nvdaUsd*(10^g.wethTokenDecimals*k) := by gcongr
    _ = f*k*(10^g.wethTokenDecimals*g.denominator nvdaUsd) := by ring
    _ ≤ m*10000*(10^g.wethTokenDecimals*g.denominator nvdaUsd) := by gcongr
    _ = m*10000*10^g.wethTokenDecimals*g.denominator nvdaUsd := by ring

/-- The computed floor is above the exact one by less than the worth of the unit that the
first division may add, and one unit for each of the two others. -/
theorem Guard.floorAmount_lt (hn : 0 < nvdaUsd) :
    (g.floorAmount sellAmount wethUsd nvdaUsd maxDeviationBps : ℚ) <
      g.exactFloor sellAmount wethUsd nvdaUsd maxDeviationBps+g.unitWorth nvdaUsd+2 := by
  have hd := g.denominator_pos hn
  have hd' : (0 : ℚ) < g.denominator nvdaUsd := by exact_mod_cast hd
  have hpow : 0 < 10^g.wethTokenDecimals := Nat.pow_pos (by decide)
  have husd : (g.usdScaled sellAmount wethUsd : ℚ) < _ := ceilDiv_lt _ hpow
  have hfair : (g.fairOut sellAmount wethUsd nvdaUsd : ℚ) < _ := ceilDiv_lt _ hd
  have hfloor : (g.floorAmount sellAmount wethUsd nvdaUsd maxDeviationBps : ℚ) < _ :=
    ceilDiv_lt _ (by decide)
  have hk : ((10000-deviation maxDeviationBps : ℕ) : ℚ) ≤ 10000 := by
    exact_mod_cast Nat.sub_le _ _
  have hk0 : (0 : ℚ) ≤ (10000-deviation maxDeviationBps : ℕ) := Nat.cast_nonneg _
  unfold Guard.exactFloor Guard.unitWorth
  push_cast at husd hfair hfloor
  set u : ℚ := (g.usdScaled sellAmount wethUsd : ℚ)
  set f : ℚ := (g.fairOut sellAmount wethUsd nvdaUsd : ℚ)
  set k : ℚ := ((10000-deviation maxDeviationBps : ℕ) : ℚ)
  set c : ℚ := (g.scaleUp : ℚ)
  set q : ℚ := (g.denominator nvdaUsd : ℚ)
  set t : ℚ := 10^g.wethTokenDecimals
  have ht : 0 < t := by positivity
  have hc : 0 ≤ c := Nat.cast_nonneg _
  have hworth : f < (sellAmount*wethUsd/t+1)*(c/q)+1 := by
    calc f < u*c/q+1 := hfair
      _ = u*(c/q)+1 := by ring
      _ ≤ (sellAmount*wethUsd/t+1)*(c/q)+1 := by gcongr
  calc (g.floorAmount sellAmount wethUsd nvdaUsd maxDeviationBps : ℚ)
      < f*k/10000+1 := hfloor
    _ ≤ ((sellAmount*wethUsd/t+1)*(c/q)+1)*k/10000+1 := by gcongr
    _ = sellAmount*wethUsd*c*k/(10000*t*q)+(c/q+1)*(k/10000)+1 := by field_simp; ring
    _ ≤ sellAmount*wethUsd*c*k/(10000*t*q)+(c/q+1)*1+1 := by
      have hk1 : k/10000 ≤ 1 := by linarith
      gcongr
    _ = sellAmount*wethUsd*c*k/(10000*t*q)+c/q+2 := by ring

/-- Both fractions, written out. -/
theorem Guard.exactFloor_eq : g.exactFloor sellAmount wethUsd nvdaUsd maxDeviationBps =
    sellAmount*wethUsd*10^(g.nvdaFeedDecimals+g.nvdaTokenDecimals)*
        (10000-deviation maxDeviationBps : ℕ)/
      (10000*10^(g.wethTokenDecimals+g.wethFeedDecimals)*nvdaUsd) := by
  simp only [Guard.exactFloor,Guard.scaleUp,Guard.denominator,Nat.cast_mul,Nat.cast_pow,
    Nat.cast_ofNat,pow_add,mul_assoc]

theorem Guard.unitWorth_eq : g.unitWorth nvdaUsd =
    10^(g.nvdaFeedDecimals+g.nvdaTokenDecimals)/(10^g.wethFeedDecimals*nvdaUsd) := by
  simp only [Guard.unitWorth,Guard.scaleUp,Guard.denominator,Nat.cast_mul,Nat.cast_pow,
    Nat.cast_ofNat]

/-- A smaller sale has a smaller floor, and fits where the larger one does. -/
theorem Guard.floor_mono (hn : 0 < nvdaUsd) (hle : sellAmount' ≤ sellAmount) :
    g.usdScaled sellAmount' wethUsd ≤ g.usdScaled sellAmount wethUsd ∧
    g.fairOut sellAmount' wethUsd nvdaUsd ≤ g.fairOut sellAmount wethUsd nvdaUsd ∧
    g.floorAmount sellAmount' wethUsd nvdaUsd maxDeviationBps ≤
      g.floorAmount sellAmount wethUsd nvdaUsd maxDeviationBps := by
  have husd : g.usdScaled sellAmount' wethUsd ≤ g.usdScaled sellAmount wethUsd :=
    ceilDiv_mono (Nat.pow_pos (by decide)) (Nat.mul_le_mul_right _ hle)
  have hfair : g.fairOut sellAmount' wethUsd nvdaUsd ≤ g.fairOut sellAmount wethUsd nvdaUsd :=
    ceilDiv_mono (g.denominator_pos hn) (Nat.mul_le_mul_right _ husd)
  exact ⟨husd,hfair,ceilDiv_mono (by decide) (Nat.mul_le_mul_right _ hfair)⟩

theorem Guard.Fits.mono (hn : 0 < nvdaUsd) (hle : sellAmount' ≤ sellAmount)
    (h : g.Fits sellAmount wethUsd nvdaUsd maxDeviationBps) :
    g.Fits sellAmount' wethUsd nvdaUsd maxDeviationBps := by
  have hmono : _ ∧ _ ∧ g.floorAmount sellAmount' wethUsd nvdaUsd maxDeviationBps ≤
      g.floorAmount sellAmount wethUsd nvdaUsd maxDeviationBps := g.floor_mono hn hle
  exact ⟨hmono.1.trans_lt h.usdScaled,h.denominator,hmono.2.1.trans_lt h.fairOut,
    hmono.2.2.trans_lt h.floorAmount⟩

variable {keccak256 : Hash} {chain : Chain} {sellToken buyToken : Address}
  {minBuyAmount expectedDecimals maxAge answer : ℕ} {feed : Address} {descriptionHash : Bytes32}

theorem readFreshAnswer_pos (h : readFreshAnswer keccak256 chain feed expectedDecimals
    descriptionHash maxAge = .ok answer) : 0 < answer := by
  simp only [readFreshAnswer,bind_eq_ok,revertIf_eq_ok,orRevert_eq_ok,exists_const,
    pure_eq_ok] at h
  obtain ⟨_,-,-,_,-,-,round,-,-,hpos,-,-,-,-,rfl⟩ := h
  omega

theorem readAnswers_pos (h : readAnswers keccak256 g chain = .ok (wethUsd,nvdaUsd)) :
    0 < nvdaUsd := by
  simp only [readAnswers,bind_eq_ok,pure_eq_ok] at h
  obtain ⟨_,-,_,hn,he⟩ := h
  cases he
  exact readFreshAnswer_pos hn

theorem check_eq_ok (h : readAnswers keccak256 g chain = .ok (wethUsd,nvdaUsd)) :
    check keccak256 g chain sellToken buyToken sellAmount minBuyAmount maxDeviationBps = .ok () ↔
      gate g chain sellToken buyToken sellAmount minBuyAmount = .ok () ∧
      g.Fits sellAmount wethUsd nvdaUsd maxDeviationBps ∧
      g.floorAmount sellAmount wethUsd nvdaUsd maxDeviationBps ≤ minBuyAmount := by
  have hn := readAnswers_pos h
  unfold check
  simp only [h,bind_eq_ok,ok_bind,revertIf_eq_ok,oracleFloor_eq_ok hn]
  constructor
  · rintro ⟨_,hgate,_,⟨hfits,rfl⟩,hle⟩
    exact ⟨hgate,hfits,Nat.le_of_not_lt hle⟩
  · rintro ⟨hgate,hfits,hle⟩
    exact ⟨(),hgate,_,⟨hfits,rfl⟩,Nat.not_lt.mpr hle⟩

theorem gate_ne_error {floor : ℕ} : gate g chain sellToken buyToken sellAmount minBuyAmount ≠
    .error (.minBuyBelowOracleFloor floor minBuyAmount) := by
  unfold gate checkSequencer
  by_cases h0 : g.sequencerUptimeFeed = 0
  · simp [h0,bind_eq_error,revertIf_eq_error,orRevert_eq_error]
  · simp [h0,bind_eq_error,revertIf_eq_error,orRevert_eq_error,sub_eq_error]

/-- The checks before the prices ask of the amount only that it is not zero. -/
theorem gate_smaller (hpos : 0 < sellAmount')
    (h : gate g chain sellToken buyToken sellAmount minBuyAmount = .ok ()) :
    gate g chain sellToken buyToken sellAmount' minBuyAmount = .ok () := by
  simp only [gate,bind_eq_ok,revertIf_eq_ok,exists_const] at h ⊢
  obtain ⟨hchain,hpair,hzero,hrest⟩ := h
  exact ⟨hchain,hpair,fun h0 => h0.elim hpos.ne' fun hmin => hzero (Or.inr hmin),hrest⟩

/-- Only a computed floor above the minimum rejects it as below the floor. -/
theorem check_ne_error (h : readAnswers keccak256 g chain = .ok (wethUsd,nvdaUsd))
    (hle : g.floorAmount sellAmount wethUsd nvdaUsd maxDeviationBps ≤ minBuyAmount) {floor : ℕ} :
    check keccak256 g chain sellToken buyToken sellAmount minBuyAmount maxDeviationBps ≠
      .error (.minBuyBelowOracleFloor floor minBuyAmount) := by
  unfold check
  rw [h]
  intro herror
  rcases bind_eq_error.mp herror with hgate | ⟨_,-,hrest⟩
  · exact gate_ne_error hgate
  rw [ok_bind] at hrest
  rcases bind_eq_error.mp hrest with hfloor | ⟨floorAmount,hfloor,hmin⟩
  · cases oracleFloor_error hfloor
  · obtain ⟨-,rfl⟩ := (oracleFloor_eq_ok (readAnswers_pos h)).mp hfloor
    have hlt := (revertIf_eq_error.mp hmin).1
    omega

/-- The floor is exact for every pair of fresh readings: an accepted minimum is worth the
exact floor and no value of the computation overflowed; a minimum above the exact floor by
the worth of one dollar unit and two is never rejected as below the floor, and is accepted
where nothing overflows and the other checks pass; and what is accepted for one sale is
accepted for every smaller positive one. -/
theorem price_floor_exact (h : readAnswers keccak256 g chain = .ok (wethUsd,nvdaUsd))
    (sellToken buyToken : Address) (sellAmount minBuyAmount maxDeviationBps : ℕ) :
    let accepts := fun sell => check keccak256 g chain sellToken buyToken sell minBuyAmount
      maxDeviationBps = .ok ()
    let dev := min maxDeviationBps maxDeviationCeilingBps
    (accepts sellAmount →
      sellAmount*wethUsd*10^(g.nvdaFeedDecimals+g.nvdaTokenDecimals)*(10000-dev) ≤
        minBuyAmount*10000*10^(g.wethTokenDecimals+g.wethFeedDecimals)*nvdaUsd ∧
      g.Fits sellAmount wethUsd nvdaUsd maxDeviationBps) ∧
    ((sellAmount*wethUsd*10^(g.nvdaFeedDecimals+g.nvdaTokenDecimals)*(10000-dev : ℕ) : ℚ)/
        (10000*10^(g.wethTokenDecimals+g.wethFeedDecimals)*nvdaUsd)+
      10^(g.nvdaFeedDecimals+g.nvdaTokenDecimals)/(10^g.wethFeedDecimals*nvdaUsd)+2 ≤
        (minBuyAmount : ℚ) →
      (∀ floor, check keccak256 g chain sellToken buyToken sellAmount minBuyAmount
        maxDeviationBps ≠ .error (.minBuyBelowOracleFloor floor minBuyAmount)) ∧
      (gate g chain sellToken buyToken sellAmount minBuyAmount = .ok () →
        g.Fits sellAmount wethUsd nvdaUsd maxDeviationBps → accepts sellAmount)) ∧
    ∀ sell, 0 < sell → sell ≤ sellAmount → accepts sellAmount → accepts sell := by
  have hn := readAnswers_pos h
  intro accepts dev
  have hdev : deviation maxDeviationBps = dev := deviation_eq_min _
  refine ⟨fun haccept => ?_,fun habove => ?_,fun sell hpos hle haccept => ?_⟩
  · obtain ⟨-,hfits,hfloor⟩ := (check_eq_ok h).mp haccept
    refine ⟨?_,hfits⟩
    rw [← hdev]
    calc sellAmount*wethUsd*g.scaleUp*(10000-deviation maxDeviationBps)
        ≤ g.floorAmount sellAmount wethUsd nvdaUsd maxDeviationBps*10000*
            10^g.wethTokenDecimals*g.denominator nvdaUsd := g.le_floorAmount hn
      _ ≤ minBuyAmount*10000*10^g.wethTokenDecimals*g.denominator nvdaUsd := by gcongr
      _ = minBuyAmount*10000*10^(g.wethTokenDecimals+g.wethFeedDecimals)*nvdaUsd := by
        unfold Guard.denominator
        ring
  · have hfloor : g.floorAmount sellAmount wethUsd nvdaUsd maxDeviationBps ≤ minBuyAmount := by
      have hlt : (g.floorAmount sellAmount wethUsd nvdaUsd maxDeviationBps : ℚ) < _ :=
        g.floorAmount_lt hn
      rw [g.exactFloor_eq,g.unitWorth_eq,hdev] at hlt
      exact_mod_cast (hlt.trans_le habove).le
    exact ⟨fun floor => check_ne_error h hfloor,
      fun hgate hfits => (check_eq_ok h).mpr ⟨hgate,hfits,hfloor⟩⟩
  · obtain ⟨hgate,hfits,hfloor⟩ := (check_eq_ok h).mp haccept
    have hmono : _ ∧ _ ∧ g.floorAmount sell wethUsd nvdaUsd maxDeviationBps ≤ _ :=
      g.floor_mono hn hle
    exact (check_eq_ok h).mpr ⟨gate_smaller hpos hgate,hfits.mono hn hle,hmono.2.2.trans hfloor⟩

/-- Feeds of eight decimals, at `3000` and `150` dollars, for tokens of eighteen. -/
def sampleChain : Chain where
  chainId := 4663
  timestamp := 1000
  code := fun _ => [1]
  feed := fun a => if a = 3 then ⟨some 8,some [3],some ⟨1,300000000000,900,950,1⟩⟩
    else ⟨some 8,some [4],some ⟨1,15000000000,900,990,1⟩⟩
  tokenDecimals := fun _ => some 18
  oraclePaused := fun _ => some false

def sampleGuard : Guard where
  wethToken := 1
  nvdaToken := 2
  wethUsdFeed := 3
  nvdaUsdFeed := 4
  sequencerUptimeFeed := 0
  sequencerRecoveryGraceSec := 0
  maxWethFeedAgeSec := 900
  maxNvdaFeedAgeSec := 900
  wethFeedDecimals := 8
  nvdaFeedDecimals := 8
  wethTokenDecimals := 18
  nvdaTokenDecimals := 18
  wethFeedDescriptionHash := toyHash [3]
  nvdaFeedDescriptionHash := toyHash [4]
  nonzero := by decide
  ages := by decide
  distinct := by decide
  decimals := by decide

example : construct toyHash sampleChain sampleGuard.toConfig = .ok sampleGuard := rfl

/-- One hundredth of a WETH at the floor of one per cent below twenty for one. -/
theorem sampleGuard_exact :
    check toyHash sampleGuard sampleChain 1 2 10000000000000000 198000000000000000 100 = .ok () ∧
    10000000000000000*300000000000*10^(8+18)*9900 ≤
      198000000000000000*10000*10^(18+8)*15000000000 := by
  have hread : readAnswers toyHash sampleGuard sampleChain = .ok (300000000000,15000000000) := rfl
  have haccept : check toyHash sampleGuard sampleChain 1 2 10000000000000000
      198000000000000000 100 = .ok () := by decide +kernel
  exact ⟨haccept,((price_floor_exact hread 1 2 10000000000000000 198000000000000000 100).1
    haccept).1⟩

end PriceGuard
end BpsProtocol
