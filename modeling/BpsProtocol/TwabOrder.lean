import BpsProtocol.AllocationFairness
import BpsProtocol.FixtureOrder
import BpsProtocol.Lib.Separated
import BpsProtocol.TwabBounds

/-! The weights do not depend on the order of the inputs.
Which transfers are kept and whether two of them conflict is said by the members of the list
alone, and ties in the canonical order are refused.  What follows sums over the locks and
looks up the balances by wallet. -/
namespace BpsProtocol
namespace Twab

open Checked Mapping Shared HexText CycleFixture Allocation

section Identity

variable {a b c : ConfirmedTransfer}

/-- An identity is read back from its ends: neither number holds the separator. -/
theorem identity_eq (h : identity a = identity b) : a.chainId = b.chainId ∧
    a.transactionHash = b.transactionHash ∧ a.logIndex = b.logIndex := by
  obtain ⟨hinit,hlog⟩ := Separated.append_sep_inj
    (Or.inr ⟨bar_notMem_toString10 _,bar_notMem_toString10 _⟩) h
  have hreverse := congrArg List.reverse hinit
  simp only [List.reverse_append,List.reverse_cons,List.append_assoc,List.singleton_append]
    at hreverse
  obtain ⟨hhash,hchain⟩ := Separated.append_sep_inj (Or.inr
    ⟨fun hmem => bar_notMem_toString10 _ (List.mem_reverse.1 hmem),
      fun hmem => bar_notMem_toString10 _ (List.mem_reverse.1 hmem)⟩) hreverse
  exact ⟨toString10_injective (List.reverse_injective hchain),List.reverse_injective hhash,
    toString10_injective hlog⟩

/-- Two logs of one identity with the same content are one log. -/
theorem eq_of_sameTransfer (hid : identity a = identity b) (h : sameTransfer a b = true) :
    a = b := by
  obtain ⟨hchain,hhash,hlog⟩ := identity_eq hid
  simp only [sameTransfer,Bool.and_eq_true,decide_eq_true_eq] at h
  cases a
  cases b
  simp_all

theorem sameTransfer_self (a : ConfirmedTransfer) : sameTransfer a a = true := by
  simp [sameTransfer]

end Identity

section Collecting

variable {byIdentity transfers transfers' deduped : List ConfirmedTransfer}

/-- No two of the transfers share an identity. -/
def Distinct (transfers : List ConfirmedTransfer) : Prop := (transfers.map identity).Nodup

theorem distinct_nil : Distinct [] := List.nodup_nil

/-- Transfers of one identity are equal. -/
def Consistent (transfers : List ConfirmedTransfer) : Prop :=
  ∀ a ∈ transfers, ∀ b ∈ transfers, identity a = identity b → a = b

theorem Distinct.consistent (h : Distinct transfers) : Consistent transfers :=
  fun _ ha _ hb hid => List.inj_on_of_nodup_map h ha hb hid

theorem Distinct.concat {t : ConfirmedTransfer} (h : Distinct transfers)
    (hnew : ∀ x ∈ transfers, identity x ≠ identity t) : Distinct (transfers ++ [t]) := by
  rw [Distinct,List.map_append,List.nodup_append]
  refine ⟨h,List.nodup_singleton _,?_⟩
  intro x hx y hy
  obtain ⟨a,ha,rfl⟩ := List.mem_map.1 hx
  rw [List.map_singleton,List.mem_singleton] at hy
  exact hy ▸ hnew a ha

/-- Collecting keeps each transfer once, or finds two that conflict. -/
theorem collect_spec (h : Distinct byIdentity) :
    (∀ deduped, collect byIdentity transfers = .ok deduped →
      Distinct deduped ∧ ∀ t, t ∈ deduped ↔ t ∈ byIdentity ∨ t ∈ transfers) ∧
    ∀ e, collect byIdentity transfers = .error e → ¬Consistent (byIdentity ++ transfers) := by
  induction transfers generalizing byIdentity with
  | nil =>
    constructor
    · intro deduped hok
      obtain rfl := Except.ok.inj hok
      simp [h]
    · intro e herror
      cases herror
  | cons t rest ih =>
    cases hfind : byIdentity.find? (fun x => identity x = identity t) with
    | some existing =>
      have hold : existing ∈ byIdentity := List.mem_of_find?_eq_some hfind
      have hid : identity existing = identity t := by simpa using List.find?_some hfind
      by_cases hsame : sameTransfer existing t = true
      · have heq : existing = t := eq_of_sameTransfer hid hsame
        subst heq
        have hstep : collect byIdentity (existing::rest) = collect byIdentity rest := by
          simp [collect,hfind,sameTransfer_self,revertIf,bind,Except.bind]
        rw [hstep]
        obtain ⟨hok,herror⟩ := ih h
        constructor
        · intro deduped hdeduped
          obtain ⟨hdistinct,hmem⟩ := hok deduped hdeduped
          refine ⟨hdistinct,fun x => ?_⟩
          rw [hmem,List.mem_cons]
          by_cases hx : x = existing <;> simp [hx,hold]
        · intro e he hconsistent
          refine herror e he fun a ha b hb => hconsistent a ?_ b ?_
          · simp only [List.mem_append,List.mem_cons] at ha ⊢
            exact ha.imp_right Or.inr
          · simp only [List.mem_append,List.mem_cons] at hb ⊢
            exact hb.imp_right Or.inr
      · have hconflict : collect byIdentity (t::rest) = .error (.conflictingLog (identity t)) := by
          simp [collect,hfind,hsame,revertIf,bind,Except.bind]
        rw [hconflict]
        refine ⟨fun deduped hok => (by cases hok),fun _ _ hconsistent => hsame ?_⟩
        have heq : existing = t := hconsistent existing (by simp [hold]) t (by simp) hid
        rw [heq,sameTransfer_self]
    | none =>
      have hnew : ∀ x ∈ byIdentity, identity x ≠ identity t := by
        simpa using List.find?_eq_none.1 hfind
      have hstep : collect byIdentity (t::rest) = collect (byIdentity ++ [t]) rest := by
        simp [collect,hfind]
      rw [hstep]
      obtain ⟨hok,herror⟩ := ih (h.concat hnew)
      constructor
      · intro deduped hdeduped
        obtain ⟨hdistinct,hmem⟩ := hok deduped hdeduped
        refine ⟨hdistinct,fun x => ?_⟩
        rw [hmem]
        simp [or_assoc]
      · intro e he
        simpa using herror e he

/-- Transfers without a conflict are collected. -/
theorem exists_collect (h : Consistent transfers) : ∃ deduped, collect [] transfers = .ok deduped ∧
    Distinct deduped ∧ ∀ t, t ∈ deduped ↔ t ∈ transfers := by
  obtain ⟨hok,herror⟩ := @collect_spec [] transfers distinct_nil
  cases hcollect : collect [] transfers with
  | error e => exact absurd h (herror e hcollect)
  | ok deduped =>
    obtain ⟨hdistinct,hmem⟩ := hok deduped hcollect
    exact ⟨deduped,rfl,hdistinct,by simpa using hmem⟩

end Collecting

section Order

variable {a b c : ConfirmedTransfer} {transfers transfers' deduped : List ConfirmedTransfer}

theorem compareCanonical_nonpos : compareCanonical a b ≤ 0 ↔ a.blockNumber < b.blockNumber ∨
    a.blockNumber = b.blockNumber ∧ (a.transactionIndex < b.transactionIndex ∨
      a.transactionIndex = b.transactionIndex ∧ a.logIndex ≤ b.logIndex) := by
  unfold compareCanonical
  split_ifs <;> omega

theorem compareCanonical_swap : compareCanonical b a = -compareCanonical a b := by
  unfold compareCanonical
  split_ifs <;> omega

theorem compareCanonical_eq_zero :
    compareCanonical a b = 0 ↔ compareCanonical a b ≤ 0 ∧ compareCanonical b a ≤ 0 := by
  rw [@compareCanonical_swap a b]
  omega

theorem compareCanonical_trans (hab : compareCanonical a b ≤ 0) (hbc : compareCanonical b c ≤ 0) :
    compareCanonical a c ≤ 0 := by
  rw [compareCanonical_nonpos] at hab hbc ⊢
  omega

instance : Std.Total (fun a b : ConfirmedTransfer => compareCanonical a b ≤ 0) :=
  ⟨fun a b => by
    simp only [compareCanonical_nonpos]
    omega⟩

instance : IsTrans ConfirmedTransfer (fun a b => compareCanonical a b ≤ 0) :=
  ⟨fun _ _ _ => compareCanonical_trans⟩

/-- In a sorted list without tied neighbours no two transfers are tied. -/
theorem checkOrder_untied (h : checkOrder deduped = .ok ())
    (hsorted : deduped.Pairwise (fun a b => compareCanonical a b ≤ 0)) :
    deduped.Pairwise (fun a b => ¬compareCanonical b a ≤ 0) := by
  induction deduped with
  | nil => exact List.Pairwise.nil
  | cons prev rest ih =>
    cases rest with
    | nil => exact List.pairwise_singleton _ _
    | cons cur rest =>
      simp only [checkOrder,bind_eq_ok,revertIf_eq_ok,exists_const] at h
      obtain ⟨hne,-,h⟩ := h
      obtain ⟨hprev,hsorted⟩ := List.pairwise_cons.1 hsorted
      have huntied := ih h hsorted
      refine List.pairwise_cons.2 ⟨fun x hx hback => ?_,huntied⟩
      -- a tie with a later transfer would be one with the neighbour
      have hcur : compareCanonical cur x ≤ 0 := by
        rcases List.mem_cons.1 hx with rfl | hx
        · simp [compareCanonical]
        · exact (List.pairwise_cons.1 hsorted).1 x hx
      have hnext := hprev cur List.mem_cons_self
      exact hne (compareCanonical_eq_zero.2 ⟨hnext,compareCanonical_trans hcur hback⟩)

/-- Without ties, transfers that are below each other are equal. -/
theorem eq_of_untied (h : deduped.Pairwise (fun a b => ¬compareCanonical b a ≤ 0))
    (ha : a ∈ deduped) (hb : b ∈ deduped) (hab : compareCanonical a b ≤ 0)
    (hba : compareCanonical b a ≤ 0) : a = b := by
  induction h with
  | nil => exact absurd ha List.not_mem_nil
  | cons hfirst _ ih =>
    rcases List.mem_cons.1 ha with rfl | ha' <;> rcases List.mem_cons.1 hb with rfl | hb'
    · rfl
    · exact absurd hba (hfirst b hb')
    · exact absurd hab (hfirst a ha')
    · exact ih ha' hb'

/-- The canonical transfers: distinct, in order without ties, and accepted again. -/
structure Canonical (transfers deduped : List ConfirmedTransfer) : Prop where
  distinct : Distinct deduped
  mem : ∀ t, t ∈ deduped ↔ t ∈ transfers
  sorted : deduped.Pairwise (fun a b => compareCanonical a b ≤ 0)
  checked : checkOrder deduped = .ok ()

theorem canonicalizeTransfers_eq_ok :
    canonicalizeTransfers transfers = .ok deduped ↔ Canonical transfers deduped := by
  simp only [canonicalizeTransfers,bind_eq_ok,pure_eq_ok]
  constructor
  · rintro ⟨byIdentity,hcollect,u,hcheck,rfl⟩
    obtain ⟨hdistinct,hmem⟩ := (collect_spec distinct_nil).1 byIdentity hcollect
    have hperm := List.perm_insertionSort (fun a b => compareCanonical a b ≤ 0) byIdentity
    refine ⟨(hperm.map _).nodup_iff.2 hdistinct,fun t => ?_,List.pairwise_insertionSort _ _,hcheck⟩
    rw [hperm.mem_iff,hmem]
    simp
  · intro h
    have hconsistent : Consistent transfers := fun a ha b hb =>
      h.distinct.consistent a ((h.mem a).2 ha) b ((h.mem b).2 hb)
    obtain ⟨byIdentity,hcollect,hdistinct,hmem⟩ := exists_collect hconsistent
    have hperm : deduped.Perm byIdentity := by
      refine (List.perm_ext_iff_of_nodup h.distinct.of_map hdistinct.of_map).2 fun t => ?_
      rw [h.mem,hmem]
    have huntied := checkOrder_untied h.checked h.sorted
    have hsort : byIdentity.insertionSort (fun a b => compareCanonical a b ≤ 0) = deduped := by
      rw [Reorder.insertionSort_eq hperm,h.sorted.insertionSort_eq]
      exact fun a ha b hb => eq_of_untied huntied ha hb
    exact ⟨byIdentity,hcollect,(),by rw [hsort]; exact h.checked,hsort⟩

/-- Canonical transfers depend on the members of the list only. -/
theorem canonicalizeTransfers_congr (h : ∀ t, t ∈ transfers' ↔ t ∈ transfers) :
    canonicalizeTransfers transfers' = .ok deduped ↔
      canonicalizeTransfers transfers = .ok deduped := by
  rw [canonicalizeTransfers_eq_ok,canonicalizeTransfers_eq_ok]
  constructor
  · rintro ⟨hdistinct,hmem,hsorted,hchecked⟩
    exact ⟨hdistinct,fun t => (hmem t).trans (h t),hsorted,hchecked⟩
  · rintro ⟨hdistinct,hmem,hsorted,hchecked⟩
    exact ⟨hdistinct,fun t => (hmem t).trans (h t).symm,hsorted,hchecked⟩

theorem canonicalizeTransfers_idempotent (h : canonicalizeTransfers transfers = .ok deduped) :
    canonicalizeTransfers deduped = .ok deduped := by
  rw [canonicalizeTransfers_eq_ok] at h ⊢
  exact ⟨h.distinct,fun _ => Iff.rfl,h.sorted,h.checked⟩

end Order

section Sums

variable {opening : Text → ℤ} {transfers : List ConfirmedTransfer} {locks locks' : List LockRecord}
  {balances balances' : List EpochStartBalance} {relevant relevant' : List Text}
  {start stop now : ℤ} {s s' : Progress}

theorem lockedAt_perm (h : locks.Perm locks') (w : Text) (tier : LockTier) (t : ℤ) :
    lockedAt locks' w tier t = lockedAt locks w tier t :=
  (((h.filter _).map _).sum_eq).symm

theorem activeLockedAt_perm (h : locks.Perm locks') (w : Text) (t : ℤ) :
    activeLockedAt locks' w t = activeLockedAt locks w t :=
  (((h.filter _).map _).sum_eq).symm

theorem overlocked_perm (h : locks.Perm locks') {t : ℤ} :
    Overlocked opening transfers locks' t ↔ Overlocked opening transfers locks t := by
  simp only [Overlocked,activeLockedAt_perm h]

theorem openingBalances_perm (h : balances.Perm balances')
    (hnodup : (balances.map EpochStartBalance.wallet).Nodup) :
    openingBalances balances' = openingBalances balances :=
  (Reorder.foldl_set_perm h hnodup _).symm

theorem relevantWallets_perm (hbalances : balances.Perm balances') (hlocks : locks.Perm locks') :
    (relevantWallets balances transfers locks).Perm (relevantWallets balances' transfers locks') := by
  obtain ⟨hnodup,hmem⟩ := relevantWallets_spec balances transfers locks
  obtain ⟨hnodup',hmem'⟩ := relevantWallets_spec balances' transfers locks'
  refine (List.perm_ext_iff_of_nodup hnodup hnodup').2 fun w => ?_
  rw [hmem,hmem']
  simp only [hbalances.mem_iff,hlocks.mem_iff]

/-- At the end all transfers are applied. -/
theorem Reached.final (h : Reached opening transfers locks relevant start now s)
    (hall : ∀ tr ∈ transfers, tr.timestamp < now) : s.balances = transfers.foldl move opening := by
  obtain ⟨done,hdone,-,hbalances⟩ := h.applied
  have hpending : s.pending = [] := by
    rw [List.eq_nil_iff_forall_not_mem]
    intro tr htr
    have hlt := hall tr (by rw [hdone]; exact List.mem_append_right _ htr)
    have hle := h.later tr htr
    omega
  rw [hbalances,hdone,hpending,List.append_nil]

/-- A sweep that reached the end met no offence. -/
theorem Reached.not_offence {e : ProofOfDistributionError}
    (h : Reached opening transfers locks relevant start stop s)
    (hall : ∀ tr ∈ transfers, tr.timestamp < stop) :
    ¬FirstOffence opening transfers locks start stop e := by
  intro hoffence
  cases hoffence with
  | overdrawn hstart hover _ =>
    have hdrawn := hover
    obtain ⟨done,tr,rest,heq,rfl,-,-⟩ := hdrawn
    exact h.covered tr.timestamp (hall tr (by simp [heq])) hover
  | overlocked hstart hstop hover _ => exact h.held _ hstart hstop hover

theorem firstOffence_perm {e : ProofOfDistributionError} (h : locks.Perm locks')
    (hoffence : FirstOffence opening transfers locks' start stop e) :
    FirstOffence opening transfers locks start stop e := by
  cases hoffence with
  | overdrawn hstart hover hfirst =>
    exact .overdrawn hstart hover fun u hsu hut hlocked =>
      hfirst u hsu hut ((overlocked_perm h).2 hlocked)
  | overlocked hstart hstop hover hfirst =>
    exact .overlocked hstart hstop ((overlocked_perm h).1 hover) hfirst

/-- Two sweeps over the same locks in different orders weigh a wallet alike. -/
theorem Reached.weigh_eq (h : Reached opening transfers locks relevant start now s)
    (h' : Reached opening transfers locks' relevant' start now s') (hlocks : locks.Perm locks')
    (hall : ∀ tr ∈ transfers, tr.timestamp < now) {w : Text} (hw : w ∈ relevant)
    (hw' : w ∈ relevant') : weigh s' w = weigh s w := by
  have hbalances : s'.balances w = s.balances w := by rw [h'.final hall,h.final hall]
  have hbase : s'.seconds.base w = s.seconds.base w := by rw [h'.base w hw',h.base w hw]
  have hunlocked : s'.seconds.unlocked w = s.seconds.unlocked w := by
    rw [h'.unlocked w hw',h.unlocked w hw]
    simp only [activeLockedAt_perm hlocks]
  have hlocked : s'.seconds.locked w = s.seconds.locked w := by
    funext tier
    rw [h'.locked w hw' tier,h.locked w hw tier]
    simp only [lockedAt_perm hlocks]
  simp only [weigh,hbalances,hbase,hunlocked,hlocked]

end Sums

section Weights

variable {input : RawCycleFixture} {f : Fixture} {deduped transfers' : List ConfirmedTransfer}
  {balances' : List EpochStartBalance} {locks' : List LockRecord} {r r' : WeightComputation}

/-- Both runs fail, or both weigh every wallet the same. -/
inductive SameOutcome :
    Except ProofOfDistributionError WeightComputation →
    Except ProofOfDistributionError WeightComputation → Prop
  | failed {e e' : ProofOfDistributionError} : SameOutcome (.error e) (.error e')
  | weighed {r r' : WeightComputation} (hperm : r.weights.Perm r'.weights)
      (hsame : weightMap r'.weights = weightMap r.weights)
      (happlied : r'.appliedTransfers = r.appliedTransfers) : SameOutcome (.ok r) (.ok r')

/-- Weights are listed under distinct wallets. -/
theorem weights_nodup {s : Progress} {relevant : List Text} {weights : List WalletWeight}
    (h : List.Forall₂ (fun w x => weigh s w = .ok x) relevant weights) (hnodup : relevant.Nodup) :
    (weights.map WalletWeight.wallet).Nodup := by
  have hmap : relevant.map id = weights.map WalletWeight.wallet := by
    refine Pairing.map_eq h fun w x hx => ?_
    obtain ⟨y,hy,hwallet,-⟩ := weigh_ok s w
    rw [Except.ok.inj (hx.symm.trans hy),hwallet]
    rfl
  rw [← hmap,List.map_id]
  exact hnodup

/-- Once the transfers are canonical, the order of the balances and of the locks is immaterial. -/
theorem computeWeights_perm (hf : Accepted f)
    (hdistinct : (f.epochStartBalances.map EpochStartBalance.wallet).Nodup)
    (hcanonical : canonicalizeTransfers f.transfers = .ok deduped)
    (hcanonical' : canonicalizeTransfers transfers' = .ok deduped)
    (hmem : ∀ t, t ∈ transfers' ↔ t ∈ f.transfers)
    (hbalances : f.epochStartBalances.Perm balances') (hlocks : f.locks.Perm locks') :
    SameOutcome (computeWeights f.cycle f.epochStartBalances f.transfers f.locks)
      (computeWeights f.cycle balances' transfers' locks') := by
  have hstarted : ∀ tr ∈ f.transfers, f.cycle.epochStart ≤ tr.timestamp :=
    fun tr htr => (hf.within tr htr).1
  have hall : ∀ tr ∈ epochTransfers f.cycle deduped, tr.timestamp < f.cycle.epochEnd := by
    intro tr htr
    simpa using (List.mem_filter.1 htr).2
  have hcases := computeWeights_cases f.epochStartBalances f.locks hf.epochEnd hcanonical hstarted
  have hcases' := computeWeights_cases balances' locks' hf.epochEnd hcanonical'
    (fun tr htr => hstarted tr ((hmem tr).1 htr))
  have hrelevant : (relevantWallets f.epochStartBalances (epochTransfers f.cycle deduped)
      f.locks).Perm (relevantWallets balances' (epochTransfers f.cycle deduped) locks') :=
    relevantWallets_perm hbalances hlocks
  rw [openingBalances_perm hbalances hdistinct] at hcases'
  rcases hcases with ⟨weights,s,hok,hreached,hweights⟩ | ⟨e,herror,hoffence⟩ <;>
    rcases hcases' with ⟨weights',s',hok',hreached',hweights'⟩ | ⟨e',herror',hoffence'⟩
  · rw [hok,hok']
    have hperm : weights.Perm weights' := by
      obtain ⟨built,hbuilt,hperm⟩ := Reorder.mapM_perm hrelevant (mapM_eq_ok.2 hweights)
      rw [← Reorder.mapM_congr fun w hw =>
        hreached.weigh_eq hreached' hlocks hall (hrelevant.mem_iff.2 hw) hw] at hbuilt
      exact Except.ok.inj (hbuilt.symm.trans (mapM_eq_ok.2 hweights')) ▸ hperm
    exact .weighed hperm (weightMap_perm (weights_nodup hweights (relevantWallets_spec _ _ _).1)
      hperm) rfl
  · exact absurd (firstOffence_perm hlocks hoffence') (hreached.not_offence hall)
  · exact absurd (firstOffence_perm hlocks.symm hoffence) (hreached'.not_offence hall)
  · rw [herror,herror']
    exact .failed

/-- For every loaded fixture, other orders of the transfers, balances and locks and repeated
transfers either fail as the fixture does or give every wallet its weight; the canonical
transfers are canonical again, and depend on the members of the list only. -/
theorem computeWeights_reordered (hload : loadCycleFixture input = .ok f)
    (hbalances : balances'.Perm f.epochStartBalances) (hlocks : locks'.Perm f.locks)
    (htransfers : ∀ t, t ∈ transfers' ↔ t ∈ f.transfers) :
    SameOutcome (computeWeights f.cycle f.epochStartBalances f.transfers f.locks)
      (computeWeights f.cycle balances' transfers' locks') ∧
    (∀ transfers deduped, canonicalizeTransfers transfers = .ok deduped →
      canonicalizeTransfers deduped = .ok deduped) ∧
    ∀ transfers transfers', (∀ t, t ∈ transfers' ↔ t ∈ transfers) → ∀ deduped,
      canonicalizeTransfers transfers' = .ok deduped ↔
        canonicalizeTransfers transfers = .ok deduped := by
  refine ⟨?_,fun _ _ => canonicalizeTransfers_idempotent,
    fun _ _ h _ => canonicalizeTransfers_congr h⟩
  cases hcanonical : canonicalizeTransfers f.transfers with
  | ok deduped =>
    exact computeWeights_perm (loadCycleFixture_ok hload) (loadCycleFixture_distinct hload).1
      hcanonical ((canonicalizeTransfers_congr htransfers).2 hcanonical) htransfers
      hbalances.symm hlocks.symm
  | error e =>
    obtain ⟨e',hcanonical'⟩ : ∃ e', canonicalizeTransfers transfers' = .error e' := by
      cases hcanonical' : canonicalizeTransfers transfers' with
      | error e' => exact ⟨e',rfl⟩
      | ok deduped =>
        rw [canonicalizeTransfers_congr htransfers,hcanonical] at hcanonical'
        cases hcanonical'
    simp only [computeWeights,hcanonical,hcanonical',error_bind]
    exact .failed

/-- The transfer of the sample twice over. -/
theorem sampleInput_reordered : ∃ f, loadCycleFixture sampleInput = .ok f ∧
    SameOutcome (computeWeights f.cycle f.epochStartBalances f.transfers f.locks)
      (computeWeights f.cycle f.epochStartBalances (f.transfers ++ f.transfers) f.locks) := by
  have hok : (loadCycleFixture sampleInput).isOk = true := by decide +kernel
  obtain ⟨f,hload⟩ := exists_eq_ok hok
  exact ⟨f,hload,(computeWeights_reordered hload (.refl _) (.refl _)
    (fun t => by rw [List.mem_append,or_self])).1⟩

end Weights

end Twab
end BpsProtocol
