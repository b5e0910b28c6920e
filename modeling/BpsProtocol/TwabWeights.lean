import BpsProtocol.TwabDefinition

/-! The weights of a loaded fixture are the floors of its sums by the second.
The canonical transfers are sorted in time, the relevant wallets are all that hold, move or
lock anything, and the breakpoints hold every event, so the sweep applies. -/
namespace BpsProtocol
namespace Twab

open Checked Mapping Shared HexText CycleFixture

section Adding

variable {α β : Type} {g : List α → β → List α} {P : β → α → Prop}

/-- A loop body that adds the elements of `P` to a set. -/
structure Adds (g : List α → β → List α) (P : β → α → Prop) : Prop where
  distinct : ∀ s x, s.Nodup → (g s x).Nodup
  mem : ∀ s x y, y ∈ g s x ↔ y ∈ s ∨ P x y

theorem Adds.foldl (h : Adds g P) (l : List β) (s : List α) :
    (s.Nodup → (l.foldl g s).Nodup) ∧ ∀ y, y ∈ l.foldl g s ↔ y ∈ s ∨ ∃ x ∈ l, P x y := by
  induction l generalizing s with
  | nil => simp
  | cons x rest ih =>
    obtain ⟨hdistinct,hmem⟩ := ih (g s x)
    refine ⟨fun hs => hdistinct (h.distinct s x hs),fun y => ?_⟩
    rw [List.foldl_cons,hmem,h.mem]
    simp only [List.mem_cons,exists_eq_or_imp,or_assoc]

theorem addOnce_adds [DecidableEq α] (f : β → α) :
    Adds (fun s x => addOnce s (f x)) (fun x y => y = f x) := by
  constructor
  · intro s x hs
    simp only [addOnce]
    split
    · exact hs
    · rename_i hnew
      rw [List.nodup_append]
      refine ⟨hs,List.nodup_singleton _,?_⟩
      rintro y hy z hz rfl
      rw [List.mem_singleton] at hz
      exact hnew (hz ▸ hy)
  · intro s x y
    simp only [addOnce]
    split
    · rename_i hold
      constructor
      · exact Or.inl
      · rintro (hy | rfl)
        · exact hy
        · exact hold
    · simp

/-- Adding where a condition holds. -/
theorem Adds.ite (h : Adds g P) (c : β → Prop) [DecidablePred c] :
    Adds (fun s x => if c x then g s x else s) (fun x y => c x ∧ P x y) := by
  constructor
  · intro s x hs
    split
    · exact h.distinct s x hs
    · exact hs
  · intro s x y
    split
    · rename_i hc
      simp [h.mem,hc]
    · rename_i hc
      simp [hc]

/-- Adding twice. -/
theorem Adds.comp {g' : List α → β → List α} {P' : β → α → Prop} (h : Adds g P) (h' : Adds g' P') :
    Adds (fun s x => g' (g s x) x) (fun x y => P x y ∨ P' x y) := by
  constructor
  · intro s x hs
    exact h'.distinct _ x (h.distinct s x hs)
  · intro s x y
    rw [h'.mem,h.mem,or_assoc]

end Adding

section Lists

variable {transfers deduped inEpoch : List ConfirmedTransfer} {locks : List LockRecord}
  {balances : List EpochStartBalance} {start stop : ℤ}

theorem mem_of_collect {byIdentity : List ConfirmedTransfer}
    (h : collect byIdentity transfers = .ok deduped) :
    ∀ tr ∈ deduped, tr ∈ byIdentity ∨ tr ∈ transfers := by
  induction transfers generalizing byIdentity with
  | nil =>
    cases h
    exact fun tr htr => Or.inl htr
  | cons t rest ih =>
    unfold collect at h
    intro tr htr
    split at h
    · simp only [bind_eq_ok,revertIf_eq_ok,exists_const] at h
      rcases ih h.2 tr htr with hmem | hmem
      · exact Or.inl hmem
      · exact Or.inr (List.mem_cons_of_mem _ hmem)
    · rcases ih h tr htr with hmem | hmem
      · rcases List.mem_append.1 hmem with hmem | hmem
        · exact Or.inl hmem
        · rw [List.mem_singleton.1 hmem]
          exact Or.inr List.mem_cons_self
      · exact Or.inr (List.mem_cons_of_mem _ hmem)

/-- Neighbours in order of time are all in order of time. -/
theorem checkOrder_ok (h : checkOrder deduped = .ok ()) :
    deduped.Pairwise (fun a b => a.timestamp ≤ b.timestamp) := by
  induction deduped with
  | nil => exact List.Pairwise.nil
  | cons prev rest ih =>
    cases rest with
    | nil => exact List.pairwise_singleton _ _
    | cons cur rest =>
      simp only [checkOrder,bind_eq_ok,revertIf_eq_ok,exists_const] at h
      obtain ⟨-,hle,h⟩ := h
      have hrest := ih h
      refine List.pairwise_cons.2 ⟨fun x hx => ?_,hrest⟩
      rcases List.mem_cons.1 hx with rfl | hx
      · omega
      · have hlater := (List.pairwise_cons.1 hrest).1 x hx
        omega

theorem canonicalizeTransfers_ok (h : canonicalizeTransfers transfers = .ok deduped) :
    deduped.Pairwise (fun a b => a.timestamp ≤ b.timestamp) ∧ ∀ tr ∈ deduped, tr ∈ transfers := by
  simp only [canonicalizeTransfers,bind_eq_ok,pure_eq_ok] at h
  obtain ⟨byIdentity,hcollect,_,hcheck,rfl⟩ := h
  refine ⟨checkOrder_ok hcheck,fun tr htr => ?_⟩
  rcases mem_of_collect hcollect tr ((List.perm_insertionSort _ _).mem_iff.1 htr) with hmem | hmem
  · exact absurd hmem List.not_mem_nil
  · exact hmem

/-- The relevant wallets are those that hold, move or lock anything, each once. -/
theorem relevantWallets_spec (balances : List EpochStartBalance)
    (inEpoch : List ConfirmedTransfer) (locks : List LockRecord) :
    (relevantWallets balances inEpoch locks).Nodup ∧
    ∀ w, w ∈ relevantWallets balances inEpoch locks ↔ (∃ b ∈ balances, w = b.wallet) ∨
      (∃ tr ∈ inEpoch, (tr.source ≠ ZERO_ADDRESS ∧ w = tr.source) ∨
        (tr.target ≠ ZERO_ADDRESS ∧ w = tr.target)) ∨ ∃ l ∈ locks, w = l.wallet := by
  have hopened := (addOnce_adds EpochStartBalance.wallet).foldl balances []
  have hmoved := (((addOnce_adds ConfirmedTransfer.source).ite
    (fun tr => tr.source ≠ ZERO_ADDRESS)).comp ((addOnce_adds ConfirmedTransfer.target).ite
    (fun tr => tr.target ≠ ZERO_ADDRESS))).foldl inEpoch
      (balances.foldl (fun s b => addOnce s b.wallet) [])
  have hlocked := (addOnce_adds LockRecord.wallet).foldl locks
  constructor
  · exact (hlocked _).1 (hmoved.1 (hopened.1 List.nodup_nil))
  · intro w
    unfold relevantWallets
    rw [(hlocked _).2,hmoved.2,hopened.2]
    simp only [List.not_mem_nil,false_or,or_assoc]

theorem openingBalances_apply (w : Text) (h : ∀ b ∈ balances, w ≠ b.wallet) :
    openingBalances balances w = 0 := by
  have hfold : ∀ (m : Text → ℤ),
      balances.foldl (fun m b => set m b.wallet b.rawBalance) m w = m w := by
    induction balances with
    | nil => simp
    | cons b rest ih =>
      intro m
      rw [List.foldl_cons,ih (fun b' hb' => h b' (List.mem_cons_of_mem _ hb'))]
      exact set_other _ (h b (by simp))
  exact hfold _

theorem idle_of_not_relevant {w : Text} (h : w ∉ relevantWallets balances inEpoch locks) :
    Idle (openingBalances balances) inEpoch locks w := by
  rw [(relevantWallets_spec balances inEpoch locks).2] at h
  push Not at h
  obtain ⟨hopening,hmoves,hlocks⟩ := h
  refine ⟨openingBalances_apply w hopening,fun tr htr => ?_,fun l hl he => hlocks l hl he.symm⟩
  obtain ⟨hsource,htarget⟩ := hmoves tr htr
  exact ⟨fun hs he => hsource hs he.symm,fun ht he => htarget ht he.symm⟩

theorem addBetween_adds (start stop : ℤ) :
    Adds (addBetween start stop) (fun t y => (start < t ∧ t < stop) ∧ y = t) :=
  (addOnce_adds (fun t : ℤ => t)).ite (fun t => start < t ∧ t < stop)

/-- The boundaries of a lock inside the epoch. -/
theorem addLock_adds (start stop : ℤ) : Adds (addLock start stop) (fun l y =>
    start < y ∧ y < stop ∧ (y = l.startTimestamp ∨ y = l.unlockTimestamp ∨ y = bonusEnd l ∨
      y ∈ l.withdrawalTimestamp)) := by
  have hbetween := addBetween_adds start stop
  constructor
  · intro s l hs
    have hthree := (hbetween.foldl [l.startTimestamp,l.unlockTimestamp,bonusEnd l] s).1 hs
    unfold addLock
    cases l.withdrawalTimestamp with
    | none => exact hthree
    | some withdrawal => exact hbetween.distinct _ _ hthree
  · intro s l y
    have hthree := (hbetween.foldl [l.startTimestamp,l.unlockTimestamp,bonusEnd l] s).2 y
    unfold addLock
    cases l.withdrawalTimestamp with
    | none =>
      rw [hthree]
      simp only [List.mem_cons,List.not_mem_nil,or_false,exists_eq_or_imp,exists_eq_left,
        Option.mem_def,reduceCtorEq]
      grind
    | some withdrawal =>
      rw [hbetween.mem,hthree]
      simp only [List.mem_cons,List.not_mem_nil,or_false,exists_eq_or_imp,exists_eq_left,
        Option.mem_def,Option.some.injEq]
      grind

/-- The sorted times are breakpoints of the epoch. -/
theorem sortedTimes_breaks (hlt : start < stop)
    (hwithin : ∀ tr ∈ inEpoch, start ≤ tr.timestamp ∧ tr.timestamp < stop) :
    ∃ rest, sortedTimes start stop inEpoch locks = start::rest ∧
      Sweep.Breaks (Event inEpoch locks) start stop rest := by
  have htransfers := (addOnce_adds ConfirmedTransfer.timestamp).foldl inEpoch (addOnce [] start)
  have hlocks := (addLock_adds start stop).foldl locks
    (inEpoch.foldl (fun s t => addOnce s t.timestamp) (addOnce [] start))
  have hstart : ∀ x, x ∈ addOnce [] start ↔ x = start := by simp [addOnce]
  have hnodup := hlocks.1 (htransfers.1 (List.nodup_singleton start))
  have hmem := hlocks.2
  simp only [htransfers.2,hstart] at hmem
  have hperm := List.perm_insertionSort (· ≤ ·) (locks.foldl (addLock start stop)
    (inEpoch.foldl (fun s t => addOnce s t.timestamp) (addOnce [] start)))
  refine Sweep.breaks_of_sorted ⟨_,hnodup,hperm⟩ (List.pairwise_insertionSort _ _) ?_ ?_ ?_ ?_
  · rw [hperm.mem_iff,hmem]
    exact Or.inl (Or.inl rfl)
  · intro x hx
    rw [hperm.mem_iff,hmem] at hx
    rcases hx with (rfl | ⟨tr,htr,rfl⟩) | ⟨l,-,hstart,-,-⟩
    · exact le_rfl
    · exact (hwithin tr htr).1
    · exact hstart.le
  · intro x hx
    rw [hperm.mem_iff,hmem] at hx
    rcases hx with (rfl | ⟨tr,htr,rfl⟩) | ⟨l,-,-,hstop,-⟩
    · exact hlt
    · exact (hwithin tr htr).2
    · exact hstop
  · intro x hx hstartx hxstop
    rw [hperm.mem_iff,hmem]
    rcases hx with ⟨tr,htr,rfl⟩ | ⟨l,hl,rfl | rfl⟩
    · exact Or.inl (Or.inr ⟨tr,htr,rfl⟩)
    · exact Or.inr ⟨l,hl,hstartx,hxstop,Or.inl rfl⟩
    · exact Or.inr ⟨l,hl,hstartx,hxstop,Or.inr (Or.inr (Or.inl rfl))⟩

end Lists

section Weights

variable {f : Fixture} {deduped : List ConfirmedTransfer}

/-- Weighing a wallet takes the floors of its seconds. -/
theorem weigh_ok (s : Progress) (w : Text) : ∃ x, weigh s w = .ok x ∧ x.wallet = w ∧
    x.baseTwab = (s.seconds.base w).tdiv EPOCH_SECONDS ∧
    x.unlockedTwab = (s.seconds.unlocked w).tdiv EPOCH_SECONDS ∧
    ∀ tier, x.lockedTwabByTier tier = (s.seconds.locked w tier).tdiv EPOCH_SECONDS := by
  refine ⟨_,rfl,rfl,rfl,rfl,fun tier => rfl⟩

/-- The canonical transfers before the end of the epoch. -/
def epochTransfers (cycle : CycleConfig) (deduped : List ConfirmedTransfer) : List ConfirmedTransfer :=
  deduped.filter (fun t => t.timestamp < cycle.epochEnd)

variable {cycle : CycleConfig} {transfers : List ConfirmedTransfer}
  (balances : List EpochStartBalance) (locks : List LockRecord)

/-- The canonical transfers form an epoch with the relevant wallets. -/
theorem epoch_of_canonical (hcanonical : canonicalizeTransfers transfers = .ok deduped)
    (hstarted : ∀ tr ∈ transfers, cycle.epochStart ≤ tr.timestamp) :
    Epoch (openingBalances balances) (epochTransfers cycle deduped) locks
      (relevantWallets balances (epochTransfers cycle deduped) locks) cycle.epochStart := by
  obtain ⟨hsorted,hmem⟩ := canonicalizeTransfers_ok hcanonical
  exact ⟨hsorted.filter _,fun tr htr => hstarted tr (hmem tr (List.mem_of_mem_filter htr)),
    (relevantWallets_spec _ _ _).1,fun w hw => idle_of_not_relevant hw⟩

/-- The sweep reaches the end of the epoch, or stops at the first offence. -/
theorem computeWeights_cases (hlength : cycle.epochEnd = cycle.epochStart+EPOCH_SECONDS)
    (hcanonical : canonicalizeTransfers transfers = .ok deduped)
    (hstarted : ∀ tr ∈ transfers, cycle.epochStart ≤ tr.timestamp) :
    (∃ weights s, computeWeights cycle balances transfers locks =
        .ok ⟨weights,epochTransfers cycle deduped⟩ ∧
      Reached (openingBalances balances) (epochTransfers cycle deduped) locks
        (relevantWallets balances (epochTransfers cycle deduped) locks) cycle.epochStart
        cycle.epochEnd s ∧
      List.Forall₂ (fun w x => weigh s w = .ok x)
        (relevantWallets balances (epochTransfers cycle deduped) locks) weights) ∨
    ∃ e, computeWeights cycle balances transfers locks = .error e ∧
      FirstOffence (openingBalances balances) (epochTransfers cycle deduped) locks
        cycle.epochStart cycle.epochEnd e := by
  have hepoch := epoch_of_canonical balances locks hcanonical hstarted
  have hlt : cycle.epochStart < cycle.epochEnd := by
    rw [hlength,EPOCH_SECONDS]
    omega
  have hwithin : ∀ tr ∈ epochTransfers cycle deduped,
      cycle.epochStart ≤ tr.timestamp ∧ tr.timestamp < cycle.epochEnd := by
    intro tr htr
    exact ⟨hepoch.started tr htr,by simpa using (List.mem_filter.1 htr).2⟩
  obtain ⟨rest,htimes,hbreaks⟩ :
      ∃ rest, sortedTimes cycle.epochStart cycle.epochEnd (epochTransfers cycle deduped) locks =
        cycle.epochStart::rest ∧ Sweep.Breaks (Event (epochTransfers cycle deduped) locks)
          cycle.epochStart cycle.epochEnd rest := sortedTimes_breaks hlt hwithin
  obtain ⟨hok,herror⟩ := Sweep.run_invariant (visit_spec hepoch) hbreaks hepoch.reached
  have hin : deduped.filter (fun t => t.timestamp < cycle.epochEnd) =
      epochTransfers cycle deduped := rfl
  simp only [computeWeights,hcanonical,ok_bind,sweep,hin,htimes]
  cases hrun : Sweep.run (visit (locksByWallet locks)
      (relevantWallets balances (epochTransfers cycle deduped) locks))
      ⟨openingBalances balances,epochTransfers cycle deduped,.zero⟩
      (cycle.epochStart::rest) with
  | error e => exact Or.inr ⟨e,rfl,herror e hrun⟩
  | ok s =>
    obtain ⟨weights,hweights⟩ : ∃ weights, (relevantWallets balances
        (epochTransfers cycle deduped) locks).mapM (weigh s) = .ok weights := by
      apply mapM_succeeds
      intro w _
      obtain ⟨x,hx,-⟩ := weigh_ok s w
      exact ⟨x,hx⟩
    refine Or.inl ⟨weights,s,?_,hok s hrun,mapM_eq_ok.1 hweights⟩
    rw [ok_bind,hweights]
    rfl

end Weights

section PerSecond

variable {input : RawCycleFixture} {f : Fixture} {deduped : List ConfirmedTransfer}

theorem activeLockedAt_nonneg {locks : List LockRecord} (h : ∀ l ∈ locks, 0 ≤ l.rawPrincipal)
    (w : Text) (t : ℤ) : 0 ≤ activeLockedAt locks w t := by
  apply List.sum_nonneg
  intro x hx
  obtain ⟨l,hl,rfl⟩ := List.mem_map.1 hx
  exact h l (List.mem_of_mem_filter hl)

theorem lockedAt_nonneg {locks : List LockRecord} (h : ∀ l ∈ locks, 0 ≤ l.rawPrincipal)
    (w : Text) (tier : LockTier) (t : ℤ) : 0 ≤ lockedAt locks w tier t := by
  apply List.sum_nonneg
  intro x hx
  obtain ⟨l,hl,rfl⟩ := List.mem_map.1 hx
  exact h l (List.mem_of_mem_filter hl)

/-- Where nobody is overlocked, nobody's balance is negative. -/
theorem balanceAt_nonneg {opening : Text → ℤ} {transfers : List ConfirmedTransfer}
    {locks : List LockRecord} {t : ℤ} (h : ∀ l ∈ locks, 0 ≤ l.rawPrincipal)
    (hheld : ¬Overlocked opening transfers locks t) (w : Text) :
    activeLockedAt locks w t ≤ balanceAt opening transfers t w ∧
      0 ≤ balanceAt opening transfers t w := by
  have hle : activeLockedAt locks w t ≤ balanceAt opening transfers t w :=
    Int.not_lt.1 fun hlt => hheld ⟨w,hlt⟩
  exact ⟨hle,(activeLockedAt_nonneg h w t).trans hle⟩

/-- A wallet's weights are the floors of its sums over the seconds of the epoch. -/
structure PerSecond (opening : Text → ℤ) (transfers : List ConfirmedTransfer)
    (locks : List LockRecord) (start stop : ℤ) (x : WalletWeight) : Prop where
  baseTwab : x.baseTwab =
    (∑ t ∈ Finset.Ico start stop, balanceAt opening transfers t x.wallet)/EPOCH_SECONDS
  unlockedTwab : x.unlockedTwab = (∑ t ∈ Finset.Ico start stop,
    (balanceAt opening transfers t x.wallet-activeLockedAt locks x.wallet t))/EPOCH_SECONDS
  lockedTwabByTier : ∀ tier, x.lockedTwabByTier tier =
    (∑ t ∈ Finset.Ico start stop, lockedAt locks x.wallet tier t)/EPOCH_SECONDS

theorem Reached.perSecond {opening : Text → ℤ} {transfers : List ConfirmedTransfer}
    {locks : List LockRecord} {relevant : List Text} {start stop : ℤ} {s : Progress}
    (h : Reached opening transfers locks relevant start stop s)
    (hlocks : ∀ l ∈ locks, 0 ≤ l.rawPrincipal) {w : Text} (hw : w ∈ relevant) {x : WalletWeight}
    (hx : weigh s w = .ok x) : PerSecond opening transfers locks start stop x := by
  obtain ⟨y,hy,hwallet,hbase,hunlocked,hlocked⟩ := weigh_ok s w
  obtain rfl := Except.ok.inj (hx.symm.trans hy)
  have hheld : ∀ t ∈ Finset.Ico start stop, ¬Overlocked opening transfers locks t := by
    intro t ht
    obtain ⟨hst,hts⟩ := Finset.mem_Ico.1 ht
    exact h.held t hst hts
  constructor
  · rw [hbase,h.base w hw,hwallet,Int.tdiv_eq_ediv_of_nonneg]
    exact Finset.sum_nonneg fun t ht => (balanceAt_nonneg hlocks (hheld t ht) w).2
  · rw [hunlocked,h.unlocked w hw,hwallet,Int.tdiv_eq_ediv_of_nonneg]
    apply Finset.sum_nonneg
    intro t ht
    have hle := (balanceAt_nonneg hlocks (hheld t ht) w).1
    omega
  · intro tier
    rw [hlocked,h.locked w hw,hwallet,Int.tdiv_eq_ediv_of_nonneg]
    exact Finset.sum_nonneg fun t _ => lockedAt_nonneg hlocks w tier t

/-- For a loaded fixture with canonical transfers, the weights succeed where no second is
overdrawn and no second of the epoch overlocked, fail by the first offence in time, a debit
before the lock check of its second, and are the floors of the sums by the second.  A wallet
that is not listed holds and locks nothing at any second. -/
theorem computeWeights_per_second (hload : loadCycleFixture input = .ok f)
    (hcanonical : canonicalizeTransfers f.transfers = .ok deduped) :
    ((∃ r, computeWeights f.cycle f.epochStartBalances f.transfers f.locks = .ok r) ↔
      (∀ t, ¬Overdrawn (openingBalances f.epochStartBalances) (epochTransfers f.cycle deduped) t) ∧
      ∀ t, f.cycle.epochStart ≤ t → t < f.cycle.epochEnd →
        ¬Overlocked (openingBalances f.epochStartBalances) (epochTransfers f.cycle deduped)
          f.locks t) ∧
    ((∃ w identity, computeWeights f.cycle f.epochStartBalances f.transfers f.locks =
        .error (.negativeBalance w identity)) ↔
      ∃ t, Overdrawn (openingBalances f.epochStartBalances) (epochTransfers f.cycle deduped) t ∧
        ∀ u, f.cycle.epochStart ≤ u → u < t →
          ¬Overlocked (openingBalances f.epochStartBalances) (epochTransfers f.cycle deduped)
            f.locks u) ∧
    ((∃ w, computeWeights f.cycle f.epochStartBalances f.transfers f.locks =
        .error (.lockExceedsBalance w)) ↔
      ∃ t, f.cycle.epochStart ≤ t ∧ t < f.cycle.epochEnd ∧
        Overlocked (openingBalances f.epochStartBalances) (epochTransfers f.cycle deduped)
          f.locks t ∧
        ∀ u, u ≤ t →
          ¬Overdrawn (openingBalances f.epochStartBalances) (epochTransfers f.cycle deduped) u) ∧
    (∀ e, computeWeights f.cycle f.epochStartBalances f.transfers f.locks = .error e →
      (∃ w identity, e = .negativeBalance w identity) ∨ ∃ w, e = .lockExceedsBalance w) ∧
    ∀ r, computeWeights f.cycle f.epochStartBalances f.transfers f.locks = .ok r →
      (∀ x ∈ r.weights, PerSecond (openingBalances f.epochStartBalances)
        (epochTransfers f.cycle deduped) f.locks f.cycle.epochStart f.cycle.epochEnd x) ∧
      ∀ w, w ∉ r.weights.map WalletWeight.wallet → ∀ t,
        balanceAt (openingBalances f.epochStartBalances) (epochTransfers f.cycle deduped) t w = 0 ∧
        activeLockedAt f.locks w t = 0 := by
  have hf := loadCycleFixture_ok hload
  have hstarted : ∀ tr ∈ f.transfers, f.cycle.epochStart ≤ tr.timestamp :=
    fun tr htr => (hf.within tr htr).1
  have hepoch := epoch_of_canonical f.epochStartBalances f.locks hcanonical hstarted
  have hbound : ∀ t, Overdrawn (openingBalances f.epochStartBalances)
      (epochTransfers f.cycle deduped) t → f.cycle.epochStart ≤ t ∧ t < f.cycle.epochEnd := by
    rintro t ⟨before,tr,after,heq,rfl,-,-⟩
    have hmem : tr ∈ epochTransfers f.cycle deduped := by simp [heq]
    exact ⟨hepoch.started tr hmem,by simpa using (List.mem_filter.1 hmem).2⟩
  rcases computeWeights_cases f.epochStartBalances f.locks hf.epochEnd hcanonical hstarted with
    ⟨weights,s,hok,hreached,hweights⟩ | ⟨e,herror,hoffence⟩
  · rw [hok]
    have hcovered : ∀ t, ¬Overdrawn (openingBalances f.epochStartBalances)
        (epochTransfers f.cycle deduped) t :=
      fun t hover => hreached.covered t (hbound t hover).2 hover
    refine ⟨⟨fun _ => ⟨hcovered,hreached.held⟩,fun _ => ⟨_,rfl⟩⟩,⟨?_,?_⟩,⟨?_,?_⟩,
      fun e he => (by cases he),?_⟩
    · rintro ⟨w,identity,h⟩
      cases h
    · rintro ⟨t,hover,-⟩
      exact absurd hover (hcovered t)
    · rintro ⟨w,h⟩
      cases h
    · rintro ⟨t,hst,hts,hover,-⟩
      exact absurd hover (hreached.held t hst hts)
    · intro r hr
      obtain rfl := Except.ok.inj hr
      constructor
      · intro x hx
        obtain ⟨w,hw,hweigh⟩ := Pairing.exists_left hweights hx
        exact hreached.perSecond hf.principals hw hweigh
      · intro w hw t
        have hidle : Idle (openingBalances f.epochStartBalances) (epochTransfers f.cycle deduped)
            f.locks w := by
          apply hepoch.idle
          intro hmem
          obtain ⟨x,hx,hweigh⟩ := Pairing.exists_right hweights hmem
          obtain ⟨y,hy,hwallet,-⟩ := weigh_ok s w
          obtain rfl := Except.ok.inj (hweigh.symm.trans hy)
          exact hw (List.mem_map.2 ⟨_,hx,hwallet⟩)
        exact ⟨hidle.balance t,hidle.locked t⟩
  · rw [herror]
    cases hoffence with
    | @overdrawn w identity t hst hover hfirst =>
      refine ⟨⟨?_,?_⟩,⟨fun _ => ⟨t,hover,hfirst⟩,fun _ => ⟨w,identity,rfl⟩⟩,⟨?_,?_⟩,
        fun e he => Or.inl ⟨w,identity,(Except.error.inj he).symm⟩,?_⟩
      · rintro ⟨r,h⟩
        cases h
      · rintro ⟨hcovered,-⟩
        exact absurd hover (hcovered t)
      · rintro ⟨w',h⟩
        cases h
      · -- a lock offence before this debit would have come first
        rintro ⟨u,hsu,-,hlocked,hnone⟩
        by_cases hut : u < t
        · exact absurd hlocked (hfirst u hsu hut)
        · exact absurd hover (hnone t (by omega))
      · intro r h
        cases h
    | @overlocked w t hst hts hover hfirst =>
      refine ⟨⟨?_,?_⟩,⟨?_,?_⟩,⟨fun _ => ⟨t,hst,hts,hover,hfirst⟩,fun _ => ⟨w,rfl⟩⟩,
        fun e he => Or.inr ⟨w,(Except.error.inj he).symm⟩,?_⟩
      · rintro ⟨r,h⟩
        cases h
      · rintro ⟨-,hheld⟩
        exact absurd hover (hheld t hst hts)
      · rintro ⟨w',identity,h⟩
        cases h
      · rintro ⟨u,hdrawn,hnone⟩
        by_cases hut : u ≤ t
        · exact absurd hdrawn (hfirst u hut)
        · exact absurd hover (hnone t hst (by omega))
      · intro r h
        cases h

/-- The second epoch; wallet `1` pays `100` of its `900` to wallet `2`, and has `300` locked. -/
def sampleInput : RawCycleFixture where
  cycle := {
    schemaVersion := "1".toList
    cycleId := "1".toList
    chainId := "1".toList
    bpsTokenAddress := addressText 9
    claimManagerAddress := addressText 100
    economicsVersion := ECON_VERSION
    rewardPolicyVersion := "1".toList
    epochId := "1".toList
    epochStart := "900".toList
    epochEnd := "1800".toList
    startBlock := "1".toList
    endBlock := "9".toList
    snapshotBlock := "9".toList
    finalizedBlock := "9".toList
    confirmationDepth := "0".toList
    claimStart := "2000".toList
    claimDeadline := "3000".toList
    termsVersion := "1".toList
    eligibilityPolicyVersion := "1".toList
    restrictedJurisdictionPolicyVersion := "1".toList }
  excludedAddresses := []
  eligibility := []
  epochStartBalances := [⟨addressText 1,"900".toList⟩]
  transfers := [{
    chainId := "1".toList
    blockNumber := "5".toList
    blockHash := '0' :: 'x' :: write 64 5
    transactionHash := '0' :: 'x' :: write 64 6
    transactionIndex := "0".toList
    logIndex := "0".toList
    timestamp := "1000".toList
    source := addressText 1
    target := addressText 2
    rawAmount := "100".toList }]
  locks := [⟨addressText 1,"300".toList,LockTier.lock7D.text,"0".toList,"604800".toList,none⟩]
  assets := [⟨"T".toList,"T".toList,addressText 50,18,"1".toList⟩]

theorem sampleInput_per_second : ∃ f deduped r, loadCycleFixture sampleInput = .ok f ∧
    canonicalizeTransfers f.transfers = .ok deduped ∧
    computeWeights f.cycle f.epochStartBalances f.transfers f.locks = .ok r ∧
    ∀ x ∈ r.weights, PerSecond (openingBalances f.epochStartBalances)
      (epochTransfers f.cycle deduped) f.locks f.cycle.epochStart f.cycle.epochEnd x := by
  have hok : (do
      let f ← loadCycleFixture sampleInput
      let _ ← canonicalizeTransfers f.transfers
      computeWeights f.cycle f.epochStartBalances f.transfers f.locks).isOk = true := by
    decide +kernel
  obtain ⟨r,hrun⟩ := exists_eq_ok hok
  simp only [bind_eq_ok] at hrun
  obtain ⟨f,hload,deduped,hcanonical,hweights⟩ := hrun
  exact ⟨f,deduped,r,hload,hcanonical,hweights,
    ((computeWeights_per_second hload hcanonical).2.2.2.2 r hweights).1⟩

end PerSecond

end Twab
end BpsProtocol
