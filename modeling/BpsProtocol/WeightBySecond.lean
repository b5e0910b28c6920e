import BpsProtocol.TwabOrder

/-! The weight that a fixture gives a wallet, by the second and for any wallet.
Every transfer counts once, in whatever order and however often it is listed. -/
namespace BpsProtocol
namespace Twab

open Checked Mapping Shared CycleFixture Allocation

section Balances

variable {opening : Text → ℤ} {transfers transfers' : List ConfirmedTransfer} {w : Text} {t : ℤ}

/-- What a transfer adds to the balance of a wallet. -/
def gain (w : Text) (tr : ConfirmedTransfer) : ℤ :=
  (if tr.target ≠ ZERO_ADDRESS ∧ tr.target = w then tr.rawAmount else 0)-
    (if tr.source ≠ ZERO_ADDRESS ∧ tr.source = w then tr.rawAmount else 0)

theorem set_add_apply (balances : Text → ℤ) (k : Text) (v : ℤ) (w : Text) :
    set balances k (balances k+v) w = balances w+if k = w then v else 0 := by
  rw [set_apply]
  by_cases h : w = k
  · rw [if_pos h,if_pos h.symm,h]
  · rw [if_neg h,if_neg (Ne.symm h),add_zero]

theorem move_apply (balances : Text → ℤ) (tr : ConfirmedTransfer) (w : Text) :
    move balances tr w = balances w+gain w tr := by
  have hdebit : ∀ balances : Text → ℤ,
      set balances tr.source (balances tr.source-tr.rawAmount) w =
        balances w-if tr.source = w then tr.rawAmount else 0 := by
    intro balances
    rw [sub_eq_add_neg,set_add_apply]
    split <;> omega
  unfold move gain
  by_cases hs : tr.source = ZERO_ADDRESS <;> by_cases ht : tr.target = ZERO_ADDRESS
  · simp [hs,ht]
  · simp [hs,ht,set_add_apply]
  · simp only [hs,ht,ne_eq,not_true_eq_false,not_false_eq_true,if_true,if_false,true_and,
      false_and,hdebit]
    ring
  · simp only [hs,ht,ne_eq,not_false_eq_true,if_true,true_and,set_add_apply,hdebit]
    ring

theorem balanceAt_eq_sum : balanceAt opening transfers t w =
    opening w+((transfers.filter (fun tr => tr.timestamp ≤ t)).map (gain w)).sum := by
  have hfold : ∀ (trs : List ConfirmedTransfer) (balances : Text → ℤ),
      trs.foldl move balances w = balances w+(trs.map (gain w)).sum := by
    intro trs
    induction trs with
    | nil => simp
    | cons tr rest ih =>
      intro balances
      rw [List.foldl_cons,ih,move_apply,List.map_cons,List.sum_cons,add_assoc]
  exact hfold _ _

/-- The order of the transfers is immaterial. -/
theorem balanceAt_perm (h : transfers.Perm transfers') :
    balanceAt opening transfers t w = balanceAt opening transfers' t w := by
  rw [balanceAt_eq_sum,balanceAt_eq_sum,((h.filter _).map _).sum_eq]

end Balances

section Weights

variable {f : Fixture} {deduped : List ConfirmedTransfer} {r : WeightComputation}

/-- What a wallet holds at second `t`: its opening balance and every transfer up to then, once. -/
def heldAt (f : Fixture) (t : ℤ) (w : Text) : ℤ :=
  balanceAt (openingBalances f.epochStartBalances) f.transfers.dedup t w

/-- A wallet's average free balance and its average locks, each tier with its multiplier. -/
noncomputable def weightBySecond (f : Fixture) (w : Text) : ℤ :=
  (∑ t ∈ Finset.Ico f.cycle.epochStart f.cycle.epochEnd,
      (heldAt f t w-activeLockedAt f.locks w t))/EPOCH_SECONDS+
    (SUPPORTED_LOCK_TIERS.map fun tier =>
      (∑ t ∈ Finset.Ico f.cycle.epochStart f.cycle.epochEnd, lockedAt f.locks w tier t)/
        EPOCH_SECONDS*(TIER_SPECS tier).multiplierBps/10000).sum

/-- The canonical transfers of the epoch are those of the fixture, each once. -/
theorem balanceAt_canonical (h : canonicalizeTransfers f.transfers = .ok deduped) {t : ℤ}
    (ht : t < f.cycle.epochEnd) (w : Text) :
    balanceAt (openingBalances f.epochStartBalances) (epochTransfers f.cycle deduped) t w =
      heldAt f t w := by
  have hcanonical := canonicalizeTransfers_eq_ok.1 h
  have hperm : deduped.Perm f.transfers.dedup :=
    (List.perm_ext_iff_of_nodup (List.Nodup.of_map _ hcanonical.distinct)
      (List.nodup_dedup _)).2 fun tr => by rw [hcanonical.mem,List.mem_dedup]
  have hfilter : (epochTransfers f.cycle deduped).filter (fun tr => tr.timestamp ≤ t) =
      deduped.filter (fun tr => tr.timestamp ≤ t) := by
    rw [epochTransfers,List.filter_filter]
    apply List.filter_congr
    intro tr _
    simp only [Bool.and_eq_left_iff_imp,decide_eq_true_eq]
    omega
  rw [heldAt,← balanceAt_perm hperm,balanceAt,balanceAt,hfilter]

theorem multiplierBps_nonneg (tier : LockTier) : 0 ≤ (TIER_SPECS tier).multiplierBps := by
  cases tier <;> decide

/-- The floors of a run over the seconds are the weight of its wallet. -/
theorem PerSecond.effective {x : WalletWeight} (hf : Accepted f)
    (hcanonical : canonicalizeTransfers f.transfers = .ok deduped)
    (h : PerSecond (openingBalances f.epochStartBalances) (epochTransfers f.cycle deduped) f.locks
      f.cycle.epochStart f.cycle.epochEnd x) :
    x.unlockedTwab+(SUPPORTED_LOCK_TIERS.map (fun tier =>
      (x.lockedTwabByTier tier*(TIER_SPECS tier).multiplierBps).tdiv 10000)).sum =
        weightBySecond f x.wallet := by
  have hlocked : ∀ tier, 0 ≤ (∑ t ∈ Finset.Ico f.cycle.epochStart f.cycle.epochEnd,
      lockedAt f.locks x.wallet tier t)/EPOCH_SECONDS := fun tier =>
    Int.ediv_nonneg (Finset.sum_nonneg fun t _ => lockedAt_nonneg hf.principals _ tier t)
      (by decide)
  have htier : ∀ tier, (x.lockedTwabByTier tier*(TIER_SPECS tier).multiplierBps).tdiv 10000 =
      (∑ t ∈ Finset.Ico f.cycle.epochStart f.cycle.epochEnd, lockedAt f.locks x.wallet tier t)/
        EPOCH_SECONDS*(TIER_SPECS tier).multiplierBps/10000 := by
    intro tier
    rw [h.lockedTwabByTier,
      Int.tdiv_eq_ediv_of_nonneg (mul_nonneg (hlocked tier) (multiplierBps_nonneg tier))]
  simp only [htier]
  rw [weightBySecond,h.unlockedTwab]
  congr 2
  refine Finset.sum_congr rfl fun t ht => ?_
  rw [balanceAt_canonical hcanonical (Finset.mem_Ico.1 ht).2]

/-- A wallet that holds, moves and locks nothing has no weight. -/
theorem weightBySecond_idle {w : Text}
    (hcanonical : canonicalizeTransfers f.transfers = .ok deduped)
    (h : Idle (openingBalances f.epochStartBalances) (epochTransfers f.cycle deduped) f.locks w) :
    weightBySecond f w = 0 := by
  have hheld : ∀ t ∈ Finset.Ico f.cycle.epochStart f.cycle.epochEnd,
      heldAt f t w-activeLockedAt f.locks w t = 0 := by
    intro t ht
    rw [← balanceAt_canonical hcanonical (Finset.mem_Ico.1 ht).2,h.balance,h.locked,sub_zero]
  have hlocked : ∀ tier t, lockedAt f.locks w tier t = 0 := by
    intro tier t
    have hnone : f.locks.filter (fun l => l.wallet = w ∧ l.tier = tier ∧ ActiveAt l t) = [] := by
      rw [List.filter_eq_nil_iff]
      intro l hl
      simp [h.locks l hl]
    rw [lockedAt,hnone]
    rfl
  rw [weightBySecond,Finset.sum_eq_zero hheld]
  simp [hlocked]

/-- The value that a map filled under distinct wallets holds for one of them. -/
theorem weightMap_apply {weights : List WalletWeight}
    (hnodup : (weights.map WalletWeight.wallet).Nodup) (w : Text) :
    (∀ x ∈ weights, x.wallet = w → weightMap weights w = some x) ∧
      (w ∉ weights.map WalletWeight.wallet → weightMap weights w = none) := by
  have hother : ∀ (weights : List WalletWeight) (m : WeightMap),
      w ∉ weights.map WalletWeight.wallet →
      weights.foldl (fun m x => set m x.wallet (some x)) m w = m w := by
    intro weights
    induction weights with
    | nil => exact fun _ _ => rfl
    | cons y rest ih =>
      intro m hw
      rw [List.map_cons,List.mem_cons,not_or] at hw
      rw [List.foldl_cons,ih _ hw.2,set_other _ hw.1]
  refine ⟨fun x hx hwallet => ?_,fun hw => hother weights _ hw⟩
  -- behind its own entry nothing else is filled in for the wallet
  obtain ⟨before,after,rfl⟩ := List.append_of_mem hx
  rw [List.map_append,List.map_cons,List.nodup_append,List.nodup_cons] at hnodup
  rw [weightMap,List.foldl_append,List.foldl_cons,hother after _ (hwallet ▸ hnodup.2.1.1),
    ← hwallet,set_same]

/-- The run weighs every wallet as the seconds do. -/
theorem effectiveWeight_bySecond (hf : Accepted f)
    (h : computeWeights f.cycle f.epochStartBalances f.transfers f.locks = .ok r) (w : Text) :
    effectiveWeight (weightMap r.weights) w = weightBySecond f w := by
  obtain ⟨deduped,s,hcanonical,-,hreached,hweights⟩ := computeWeights_reached hf h
  have hepoch := epoch_of_canonical f.epochStartBalances f.locks hcanonical
    fun tr htr => (hf.within tr htr).1
  obtain ⟨hlisted,hother⟩ := weightMap_apply (weights_nodup hweights hepoch.distinct) w
  by_cases hw : w ∈ relevantWallets f.epochStartBalances (epochTransfers f.cycle deduped) f.locks
  · obtain ⟨x,hx,hweigh⟩ := Pairing.exists_right hweights hw
    obtain ⟨y,hy,hwallet,-⟩ := weigh_ok s w
    obtain rfl := Except.ok.inj (hweigh.symm.trans hy)
    rw [effectiveWeight,readWeight,hlisted _ hx hwallet]
    dsimp only
    rw [weigh_effective hweigh,
      (hreached.perSecond hf.principals hw hweigh).effective hf hcanonical,hwallet]
  · have hnone : w ∉ r.weights.map WalletWeight.wallet := by
      intro hmem
      obtain ⟨x,hx,hwallet⟩ := List.mem_map.1 hmem
      obtain ⟨w',hw',hweigh⟩ := Pairing.exists_left hweights hx
      obtain ⟨y,hy,hwallet',-⟩ := weigh_ok s w'
      obtain rfl := Except.ok.inj (hweigh.symm.trans hy)
      exact hw (by rwa [← hwallet,hwallet'])
    rw [effectiveWeight,readWeight,hother hnone,weightBySecond_idle hcanonical (hepoch.idle w hw)]

/-- Where the weights succeed nobody's weight is negative. -/
theorem weightBySecond_nonneg (hf : Accepted f)
    (h : computeWeights f.cycle f.epochStartBalances f.transfers f.locks = .ok r) (w : Text) :
    0 ≤ weightBySecond f w := by
  obtain ⟨deduped,s,hcanonical,-,hreached,-⟩ := computeWeights_reached hf h
  refine add_nonneg (Int.ediv_nonneg (Finset.sum_nonneg fun t ht => ?_) (by decide))
    (List.sum_nonneg fun n hn => ?_)
  · obtain ⟨hst,hts⟩ := Finset.mem_Ico.1 ht
    rw [← balanceAt_canonical hcanonical hts]
    exact sub_nonneg.2 (balanceAt_nonneg hf.principals (hreached.held t hst hts) w).1
  · obtain ⟨tier,-,rfl⟩ := List.mem_map.1 hn
    refine Int.ediv_nonneg (mul_nonneg (Int.ediv_nonneg (Finset.sum_nonneg fun t _ => ?_)
      (by decide)) (multiplierBps_nonneg tier)) (by decide)
    exact lockedAt_nonneg hf.principals w tier t

end Weights

end Twab
end BpsProtocol
