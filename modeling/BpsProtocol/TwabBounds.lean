import BpsProtocol.Lib.FloorShares
import BpsProtocol.TwabWeights

/-! Bounds of the weights.
Second by second the free and the locked balance of a wallet add up to its balance.  Each sum
is rounded down on its own, so five floors lose at most four, and no tier counts less than
once or more than its top multiplier. -/
namespace BpsProtocol
namespace Twab

open Checked Shared CycleFixture

section Effective

variable {s : Progress} {w : Text} {x : WalletWeight}

/-- The effective weight adds up the tiers, each times its multiplier. -/
theorem weigh_effective (h : weigh s w = .ok x) : x.effectiveWeight = x.unlockedTwab+
    (SUPPORTED_LOCK_TIERS.map (fun tier =>
      (x.lockedTwabByTier tier*(TIER_SPECS tier).multiplierBps).tdiv 10000)).sum := by
  simp only [weigh,SUPPORTED_LOCK_TIERS,List.foldlM_cons,List.foldlM_nil,bind_eq_ok,
    mulDivFloor_eq_ok,pure_eq_ok] at h
  obtain ⟨_,⟨_,⟨_,⟨-,rfl⟩,rfl⟩,_,⟨_,⟨-,rfl⟩,rfl⟩,_,⟨_,⟨-,rfl⟩,rfl⟩,_,⟨_,⟨-,rfl⟩,rfl⟩,rfl⟩,rfl⟩ := h
  simp only [SUPPORTED_LOCK_TIERS,List.map_cons,List.map_nil,List.sum_cons,List.sum_nil]
  ring

end Effective

section Sums

variable {opening : Text → ℤ} {transfers : List ConfirmedTransfer} {locks : List LockRecord}
  {w : Text} {start stop : ℤ}

/-- The free and the locked seconds of a wallet are all its seconds. -/
theorem sum_seconds : ∑ t ∈ Finset.Ico start stop,
      (balanceAt opening transfers t w-activeLockedAt locks w t)+
    (SUPPORTED_LOCK_TIERS.map (fun tier =>
      ∑ t ∈ Finset.Ico start stop, lockedAt locks w tier t)).sum =
    ∑ t ∈ Finset.Ico start stop, balanceAt opening transfers t w := by
  simp only [SUPPORTED_LOCK_TIERS,List.map_cons,List.map_nil,List.sum_cons,List.sum_nil,add_zero,
    ← Finset.sum_add_distrib]
  apply Finset.sum_congr rfl
  intro t _
  have htotal := @sum_lockedAt locks w t
  simp only [SUPPORTED_LOCK_TIERS,List.foldl_cons,List.foldl_nil] at htotal
  omega

end Sums

section Bounds

/-- A tier counts at least once, and at most its top multiplier. -/
theorem tier_bounds {locked : ℤ} (h : 0 ≤ locked) (tier : LockTier) :
    locked ≤ (locked*(TIER_SPECS tier).multiplierBps).tdiv 10000 ∧
      (locked*(TIER_SPECS tier).multiplierBps).tdiv 10000*10000 ≤ locked*17500 := by
  have hm : 10000 ≤ (TIER_SPECS tier).multiplierBps ∧ (TIER_SPECS tier).multiplierBps ≤ 17500 := by
    cases tier <;> decide
  have hlow : locked*10000 ≤ locked*(TIER_SPECS tier).multiplierBps :=
    mul_le_mul_of_nonneg_left hm.1 h
  have hhigh : locked*(TIER_SPECS tier).multiplierBps ≤ locked*17500 :=
    mul_le_mul_of_nonneg_left hm.2 h
  rw [Int.tdiv_eq_ediv_of_nonneg (by omega)]
  omega

variable {input : RawCycleFixture} {f : Fixture} {r : WeightComputation}

/-- The sweep behind accepted weights reached the end of the epoch. -/
theorem computeWeights_reached (hf : Accepted f)
    (h : computeWeights f.cycle f.epochStartBalances f.transfers f.locks = .ok r) :
    ∃ deduped s, canonicalizeTransfers f.transfers = .ok deduped ∧
      r.appliedTransfers = epochTransfers f.cycle deduped ∧
      Reached (openingBalances f.epochStartBalances) (epochTransfers f.cycle deduped) f.locks
        (relevantWallets f.epochStartBalances (epochTransfers f.cycle deduped) f.locks)
        f.cycle.epochStart f.cycle.epochEnd s ∧
      List.Forall₂ (fun w x => weigh s w = .ok x)
        (relevantWallets f.epochStartBalances (epochTransfers f.cycle deduped) f.locks)
        r.weights := by
  obtain ⟨deduped,hcanonical⟩ : ∃ deduped, canonicalizeTransfers f.transfers = .ok deduped := by
    simp only [computeWeights,bind_eq_ok] at h
    exact ⟨_,h.choose_spec.1⟩
  rcases computeWeights_cases f.epochStartBalances f.locks hf.epochEnd hcanonical
    (fun tr htr => (hf.within tr htr).1) with ⟨weights,s,hok,hreached,hweights⟩ | ⟨e,herror,-⟩
  · obtain rfl := Except.ok.inj (hok.symm.trans h)
    exact ⟨deduped,s,hcanonical,rfl,hreached,hweights⟩
  · rw [herror] at h
    cases h

/-- The parts of a wallet's average balance lose at most four units to rounding, and its
effective weight is at most the top multiplier of the average balance. -/
theorem weight_bounds (hload : loadCycleFixture input = .ok f)
    (h : computeWeights f.cycle f.epochStartBalances f.transfers f.locks = .ok r) :
    ∀ x ∈ r.weights,
      x.unlockedTwab+(SUPPORTED_LOCK_TIERS.map x.lockedTwabByTier).sum ≤ x.baseTwab ∧
      x.baseTwab-4 ≤ x.effectiveWeight ∧ x.effectiveWeight ≤ x.baseTwab*17500/10000 := by
  intro x hx
  have hf := loadCycleFixture_ok hload
  obtain ⟨deduped,s,-,-,hreached,hweights⟩ := computeWeights_reached hf h
  obtain ⟨w,hw,hweigh⟩ := Pairing.exists_left hweights hx
  have hsecond := hreached.perSecond hf.principals hw hweigh
  have heffective := weigh_effective hweigh
  have hlocked : ∀ tier, 0 ≤ x.lockedTwabByTier tier := by
    intro tier
    rw [hsecond.lockedTwabByTier tier]
    exact Int.ediv_nonneg (Finset.sum_nonneg fun t _ =>
      lockedAt_nonneg hf.principals _ tier t) (by decide)
  have hunlocked : 0 ≤ x.unlockedTwab := by
    rw [hsecond.unlockedTwab]
    refine Int.ediv_nonneg (Finset.sum_nonneg fun t ht => ?_) (by decide)
    rw [Finset.mem_Ico] at ht
    exact sub_nonneg.2 (balanceAt_nonneg hf.principals
      (hreached.held t ht.1 ht.2) x.wallet).1
  -- the five sums over the seconds, whose floors are the parts
  obtain ⟨free,locked,hfree,hparts,hwhole⟩ : ∃ (free : ℤ) (locked : LockTier → ℤ),
      x.unlockedTwab = free/EPOCH_SECONDS ∧
      (∀ tier, x.lockedTwabByTier tier = locked tier/EPOCH_SECONDS) ∧
      x.baseTwab = (free::SUPPORTED_LOCK_TIERS.map locked).sum/EPOCH_SECONDS :=
    ⟨_,_,hsecond.unlockedTwab,hsecond.lockedTwabByTier,by
      rw [List.sum_cons,sum_seconds,hsecond.baseTwab]⟩
  have hle := FloorShares.sum_floors_le (by decide : 0 < EPOCH_SECONDS)
    (free::SUPPORTED_LOCK_TIERS.map locked)
  have hge := FloorShares.floor_sum_le (by decide : 0 < EPOCH_SECONDS) free
    (SUPPORTED_LOCK_TIERS.map locked)
  rw [← hwhole] at hle hge
  have h7 := tier_bounds (hlocked .lock7D) .lock7D
  have h14 := tier_bounds (hlocked .lock14D) .lock14D
  have h21 := tier_bounds (hlocked .lock21D) .lock21D
  have h30 := tier_bounds (hlocked .lock30D) .lock30D
  simp only [SUPPORTED_LOCK_TIERS,List.map_cons,List.map_nil,List.sum_cons,List.sum_nil,
    List.length_cons,List.length_nil,← hfree,← hparts] at hle hge heffective ⊢
  omega

theorem sampleInput_weight_bounds : ∃ f r, loadCycleFixture sampleInput = .ok f ∧
    computeWeights f.cycle f.epochStartBalances f.transfers f.locks = .ok r ∧
    ∀ x ∈ r.weights,
      x.unlockedTwab+(SUPPORTED_LOCK_TIERS.map x.lockedTwabByTier).sum ≤ x.baseTwab ∧
      x.baseTwab-4 ≤ x.effectiveWeight ∧ x.effectiveWeight ≤ x.baseTwab*17500/10000 := by
  have hok : (do
      let f ← loadCycleFixture sampleInput
      computeWeights f.cycle f.epochStartBalances f.transfers f.locks).isOk = true := by
    decide +kernel
  obtain ⟨r,hrun⟩ := exists_eq_ok hok
  simp only [bind_eq_ok] at hrun
  obtain ⟨f,hload,hweights⟩ := hrun
  exact ⟨f,r,hload,hweights,weight_bounds hload hweights⟩

end Bounds

end Twab
end BpsProtocol
