import BpsProtocol.Twab

/-! The time-weighted balances by the second.
Balances, locks and offences are defined for each second of the epoch.  The sweep keeps the
sums up to its breakpoint, and it stops at the first offence. -/
namespace BpsProtocol
namespace Twab

open Checked Mapping Shared CycleFixture

/-- What a transfer moves, whether or not the balance covers it. -/
def move (balances : Text → ℤ) (tr : ConfirmedTransfer) : Text → ℤ :=
  let debited := if tr.source ≠ ZERO_ADDRESS then
    set balances tr.source (balances tr.source-tr.rawAmount) else balances
  if tr.target ≠ ZERO_ADDRESS then set debited tr.target (debited tr.target+tr.rawAmount)
    else debited

/-- The balances after all transfers up to second `t`. -/
def balanceAt (opening : Text → ℤ) (transfers : List ConfirmedTransfer) (t : ℤ) : Text → ℤ :=
  (transfers.filter (fun tr => tr.timestamp ≤ t)).foldl move opening

/-- A lock counts from its start until it is unlocked or withdrawn. -/
def ActiveAt (l : LockRecord) (t : ℤ) : Prop :=
  l.startTimestamp ≤ t ∧ t < l.unlockTimestamp ∧
    ∀ withdrawal ∈ l.withdrawalTimestamp, t < withdrawal

instance (l : LockRecord) (t : ℤ) : Decidable (ActiveAt l t) := inferInstanceAs (Decidable (_ ∧ _))

/-- The active locked principal of a wallet in one tier. -/
def lockedAt (locks : List LockRecord) (w : Text) (tier : LockTier) (t : ℤ) : ℤ :=
  ((locks.filter (fun l => l.wallet = w ∧ l.tier = tier ∧ ActiveAt l t)).map
    LockRecord.rawPrincipal).sum

/-- The active locked principal of a wallet. -/
def activeLockedAt (locks : List LockRecord) (w : Text) (t : ℤ) : ℤ :=
  ((locks.filter (fun l => l.wallet = w ∧ ActiveAt l t)).map LockRecord.rawPrincipal).sum

/-- A transfer of this second takes more than the balance before it. -/
def Overdrawn (opening : Text → ℤ) (transfers : List ConfirmedTransfer) (t : ℤ) : Prop :=
  ∃ done tr rest, transfers = done ++ tr::rest ∧ tr.timestamp = t ∧ tr.source ≠ ZERO_ADDRESS ∧
    done.foldl move opening tr.source < tr.rawAmount

/-- At this second a wallet has more locked than it holds. -/
def Overlocked (opening : Text → ℤ) (transfers : List ConfirmedTransfer) (locks : List LockRecord)
    (t : ℤ) : Prop :=
  ∃ w, balanceAt opening transfers t w < activeLockedAt locks w t

section Locks

variable {locks : List LockRecord} {w : Text} {tier : LockTier} {t : ℤ}

theorem lt_bonusEnd {l : LockRecord} :
    t < bonusEnd l ↔ t < l.unlockTimestamp ∧ ∀ withdrawal ∈ l.withdrawalTimestamp, t < withdrawal := by
  unfold bonusEnd
  cases l.withdrawalTimestamp with
  | none => simp
  | some withdrawal =>
    simp only [Option.mem_def,Option.some.injEq,forall_eq']
    split <;> omega

theorem activeAt_iff {l : LockRecord} :
    ActiveAt l t ↔ l.startTimestamp ≤ t ∧ t < bonusEnd l := by
  rw [ActiveAt,lt_bonusEnd]

/-- Summing into the entries of a table. -/
theorem foldl_active (locks : List LockRecord) (out : LockTier → ℤ) (tier : LockTier) :
    locks.foldl (fun out l =>
      if l.startTimestamp ≤ t ∧ t < bonusEnd l then set out l.tier (out l.tier+l.rawPrincipal)
      else out) out tier =
    out tier+((locks.filter (fun l => l.tier = tier ∧ ActiveAt l t)).map
      LockRecord.rawPrincipal).sum := by
  induction locks generalizing out with
  | nil => simp
  | cons l rest ih =>
    rw [List.foldl_cons,ih,List.filter_cons]
    simp only [activeAt_iff]
    by_cases hactive : l.startTimestamp ≤ t ∧ t < bonusEnd l
    · by_cases htier : l.tier = tier
      · simp [hactive,htier,add_assoc]
      · simp [hactive,htier,set_other _ (Ne.symm htier)]
    · simp [hactive]

theorem locksByWallet_eq (locks : List LockRecord) (w : Text) :
    locksByWallet locks w = locks.filter (fun l => l.wallet = w) := by
  have hfold : ∀ (m : Text → List LockRecord),
      locks.foldl (fun m l => set m l.wallet (m l.wallet ++ [l])) m w =
        m w ++ locks.filter (fun l => l.wallet = w) := by
    induction locks with
    | nil => simp
    | cons l rest ih =>
      intro m
      rw [List.foldl_cons,ih,set_apply,List.filter_cons]
      by_cases hw : l.wallet = w
      · simp [hw]
      · simp [hw,Ne.symm hw]
  exact hfold _

theorem activeLockedByTier_eq :
    activeLockedByTier (locksByWallet locks w) t tier = lockedAt locks w tier t := by
  rw [activeLockedByTier,foldl_active,locksByWallet_eq,List.filter_filter,zero_add,lockedAt]
  congr 2
  apply List.filter_congr
  intro l _
  by_cases hw : l.wallet = w <;> simp [hw]

theorem lockedAt_cons (l : LockRecord) : lockedAt (l::locks) w tier t =
    (if l.wallet = w ∧ l.tier = tier ∧ ActiveAt l t then l.rawPrincipal else 0)+
      lockedAt locks w tier t := by
  unfold lockedAt
  rw [List.filter_cons]
  split_ifs <;> simp_all

theorem activeLockedAt_cons (l : LockRecord) : activeLockedAt (l::locks) w t =
    (if l.wallet = w ∧ ActiveAt l t then l.rawPrincipal else 0)+activeLockedAt locks w t := by
  unfold activeLockedAt
  rw [List.filter_cons]
  split_ifs <;> simp_all

/-- The tiers add up. -/
theorem sum_lockedAt :
    SUPPORTED_LOCK_TIERS.foldl (fun total tier => total+lockedAt locks w tier t) 0 =
      activeLockedAt locks w t := by
  simp only [SUPPORTED_LOCK_TIERS,List.foldl_cons,List.foldl_nil]
  induction locks with
  | nil => simp [lockedAt,activeLockedAt]
  | cons l rest ih =>
    simp only [lockedAt_cons,activeLockedAt_cons]
    by_cases hactive : l.wallet = w ∧ ActiveAt l t
    · cases htier : l.tier <;> simp only [hactive,reduceCtorEq,and_false,and_true,and_self,
        if_true,if_false] <;> omega
    · have hnot : ∀ tier, ¬(l.wallet = w ∧ l.tier = tier ∧ ActiveAt l t) :=
        fun tier h => hactive ⟨h.1,h.2.2⟩
      simp only [hactive,hnot,if_false]
      omega

end Locks

section Transfers

variable {opening balances : Text → ℤ} {tr : ConfirmedTransfer}

/-- A transfer succeeds where the balance covers it. -/
theorem applyTransfer_eq (balances : Text → ℤ) (tr : ConfirmedTransfer) :
    applyTransfer balances tr =
      if tr.source ≠ ZERO_ADDRESS ∧ balances tr.source < tr.rawAmount then
        .error (.negativeBalance tr.source (identity tr))
      else .ok (move balances tr) := by
  by_cases hsource : tr.source = ZERO_ADDRESS
  · simp [applyTransfer,move,hsource,pure,Except.pure,bind,Except.bind]
  · by_cases hcover : balances tr.source < tr.rawAmount
    · have hneg : balances tr.source-tr.rawAmount < 0 := by omega
      simp [applyTransfer,hsource,hcover,revertIf,hneg,bind,Except.bind]
    · have hpos : ¬balances tr.source-tr.rawAmount < 0 := by omega
      simp [applyTransfer,move,hsource,hcover,revertIf,hpos,pure,Except.pure,bind,Except.bind]

/-- What the transfers of one second did, or the first one that overdraws. -/
theorem applyDue_spec {tCur : ℤ} {pending : List ConfirmedTransfer} :
    (∀ balances' rest, applyDue tCur balances pending = .ok (balances',rest) →
      ∃ due, pending = due ++ rest ∧ (∀ tr ∈ due, tr.timestamp = tCur) ∧
        (∀ tr ∈ rest.head?, tr.timestamp ≠ tCur) ∧ balances' = due.foldl move balances ∧
        ∀ done tr later, due = done ++ tr::later → tr.source ≠ ZERO_ADDRESS →
          tr.rawAmount ≤ done.foldl move balances tr.source) ∧
    ∀ e, applyDue tCur balances pending = .error e →
      ∃ done tr rest, pending = done ++ tr::rest ∧ tr.timestamp = tCur ∧
        tr.source ≠ ZERO_ADDRESS ∧ done.foldl move balances tr.source < tr.rawAmount ∧
        e = .negativeBalance tr.source (identity tr) := by
  induction pending generalizing balances with
  | nil =>
    refine ⟨fun balances' rest h => ?_,fun e h => (by cases h)⟩
    cases h
    exact ⟨[],rfl,by simp,by simp,rfl,by simp⟩
  | cons tr pending ih =>
    by_cases htime : tr.timestamp = tCur
    · simp only [applyDue,if_pos htime,applyTransfer_eq]
      by_cases hover : tr.source ≠ ZERO_ADDRESS ∧ balances tr.source < tr.rawAmount
      · rw [if_pos hover]
        refine ⟨fun _ _ h => (by cases h),fun e h => ?_⟩
        cases h
        exact ⟨[],tr,pending,rfl,htime,hover.1,hover.2,rfl⟩
      · rw [if_neg hover,ok_bind]
        obtain ⟨hok,herror⟩ := @ih (move balances tr)
        constructor
        · intro balances' rest h
          obtain ⟨due,hdue,htimes,hhead,hbalances,hcover⟩ := hok balances' rest h
          refine ⟨tr::due,by rw [hdue]; rfl,?_,hhead,hbalances,?_⟩
          · exact List.forall_mem_cons.2 ⟨htime,htimes⟩
          · intro done tr' later heq hsource
            cases done with
            | nil =>
              obtain ⟨rfl,-⟩ := List.cons.inj heq
              have hnot : ¬balances tr.source < tr.rawAmount := fun hlt => hover ⟨hsource,hlt⟩
              exact Int.not_lt.1 hnot
            | cons x done =>
              obtain ⟨rfl,htail⟩ := List.cons.inj heq
              exact hcover done tr' later htail hsource
        · intro e h
          obtain ⟨done,tr',rest,hpending,htime',hsource,hlt,he⟩ := herror e h
          exact ⟨tr::done,tr',rest,by rw [hpending]; rfl,htime',hsource,hlt,he⟩
    · simp only [applyDue,if_neg htime]
      refine ⟨fun _ _ h => ?_,fun _ h => (by cases h)⟩
      cases h
      exact ⟨[],rfl,by simp,by simpa using htime,rfl,by simp⟩

end Transfers

section Measuring

variable {locks : List LockRecord} {balances : Text → ℤ} {tCur dur : ℤ} {s s' : Seconds}
  {relevant : List Text}

theorem bump_apply (m : Text → ℤ) (w : Text) (v : ℤ) (x : Text) :
    bump m w v x = m x+if x = w then v else 0 := by
  unfold bump
  by_cases hv : v = 0
  · simp [hv]
  · by_cases hx : x = w
    · simp [hv,hx]
    · simp [hv,hx,set_other _ hx]

theorem bumpTier_apply (active : LockTier → ℤ) (dur : ℤ) (w : Text) (m : Text → LockTier → ℤ)
    (tier : LockTier) (x : Text) (y : LockTier) :
    bumpTier active dur w m tier x y =
      m x y+if x = w ∧ y = tier then active tier*dur else 0 := by
  unfold bumpTier
  by_cases hactive : active tier = 0
  · simp [hactive]
  · by_cases hk : x = w ∧ y = tier
    · obtain ⟨rfl,rfl⟩ := hk
      simp [hactive,set₂_apply]
    · simp [hactive,hk,set₂_apply]

theorem bumpTiers_apply (active : LockTier → ℤ) (dur : ℤ) (w : Text) (m : Text → LockTier → ℤ)
    (x : Text) (tier : LockTier) :
    SUPPORTED_LOCK_TIERS.foldl (bumpTier active dur w) m x tier =
      m x tier+if x = w then active tier*dur else 0 := by
  simp only [SUPPORTED_LOCK_TIERS,List.foldl_cons,List.foldl_nil,bumpTier_apply]
  by_cases hx : x = w
  · cases tier <;> simp [hx]
  · simp [hx]

/-- The seconds of a wallet after `dur` more with these balances and locks. -/
structure Grown (locks : List LockRecord) (balances : Text → ℤ) (tCur dur : ℤ) (s s' : Seconds)
    (w : Text) : Prop where
  covered : activeLockedAt locks w tCur ≤ balances w
  base : s'.base w = s.base w+balances w*dur
  unlocked : s'.unlocked w = s.unlocked w+(balances w-activeLockedAt locks w tCur)*dur
  locked : ∀ tier, s'.locked w tier = s.locked w tier+lockedAt locks w tier tCur*dur

/-- The measure of the first wallet. -/
def Seconds.grow (locks : List LockRecord) (balances : Text → ℤ) (tCur dur : ℤ) (s : Seconds)
    (w : Text) : Seconds where
  base := bump s.base w (balances w*dur)
  unlocked := bump s.unlocked w ((balances w-activeLockedAt locks w tCur)*dur)
  locked := SUPPORTED_LOCK_TIERS.foldl
    (bumpTier (fun tier => lockedAt locks w tier tCur) dur w) s.locked

theorem measure_cons (w : Text) (rest : List Text) :
    measure (locksByWallet locks) balances tCur dur s (w::rest) =
      if balances w < activeLockedAt locks w tCur then .error (.lockExceedsBalance w)
      else measure (locksByWallet locks) balances tCur dur (s.grow locks balances tCur dur w) rest := by
  have hactive : activeLockedByTier (locksByWallet locks w) tCur =
      fun tier => lockedAt locks w tier tCur := funext fun tier => activeLockedByTier_eq
  simp only [measure,hactive,sum_lockedAt]
  by_cases hover : balances w < activeLockedAt locks w tCur
  · have hneg : balances w-activeLockedAt locks w tCur < 0 := by omega
    simp [revertIf,hover,hneg,bind,Except.bind]
  · have hpos : ¬balances w-activeLockedAt locks w tCur < 0 := by omega
    simp [revertIf,hover,hpos,bind,Except.bind,Seconds.grow]

/-- Another wallet's seconds stay as they are. -/
theorem Seconds.grow_other (locks : List LockRecord) (balances : Text → ℤ) (tCur dur : ℤ)
    (s : Seconds) {w x : Text} (hx : x ≠ w) :
    (s.grow locks balances tCur dur w).base x = s.base x ∧
    (s.grow locks balances tCur dur w).unlocked x = s.unlocked x ∧
    ∀ tier, (s.grow locks balances tCur dur w).locked x tier = s.locked x tier := by
  simp [grow,bump_apply,bumpTiers_apply,hx]

/-- Measuring adds to each relevant wallet, or finds one with too much locked. -/
theorem measure_spec (hnodup : relevant.Nodup) :
    (∀ s', measure (locksByWallet locks) balances tCur dur s relevant = .ok s' →
      (∀ w ∈ relevant, Grown locks balances tCur dur s s' w) ∧
      ∀ w, w ∉ relevant → s'.base w = s.base w ∧ s'.unlocked w = s.unlocked w ∧
        ∀ tier, s'.locked w tier = s.locked w tier) ∧
    ∀ e, measure (locksByWallet locks) balances tCur dur s relevant = .error e →
      ∃ w ∈ relevant, balances w < activeLockedAt locks w tCur ∧ e = .lockExceedsBalance w := by
  induction relevant generalizing s with
  | nil =>
    refine ⟨fun s' h => ?_,fun e h => (by cases h)⟩
    cases h
    simp
  | cons w rest ih =>
    obtain ⟨hw,hrest⟩ := List.nodup_cons.1 hnodup
    rw [measure_cons]
    by_cases hover : balances w < activeLockedAt locks w tCur
    · rw [if_pos hover]
      refine ⟨fun s' h => (by cases h),fun e h => ?_⟩
      cases h
      exact ⟨w,by simp,hover,rfl⟩
    · rw [if_neg hover]
      obtain ⟨hok,herror⟩ := ih (s := s.grow locks balances tCur dur w) hrest
      constructor
      · intro s' h
        obtain ⟨hgrown,hsame⟩ := hok s' h
        constructor
        · intro x hx
          rcases List.mem_cons.1 hx with rfl | hx
          · obtain ⟨hbase,hunlocked,hlocked⟩ := hsame x hw
            refine ⟨Int.not_lt.1 hover,?_,?_,fun tier => ?_⟩
            · rw [hbase]
              simp [Seconds.grow,bump_apply]
            · rw [hunlocked]
              simp [Seconds.grow,bump_apply]
            · rw [hlocked]
              simp [Seconds.grow,bumpTiers_apply]
          · have hne : x ≠ w := fun he => hw (he ▸ hx)
            obtain ⟨hbase,hunlocked,hlocked⟩ := s.grow_other locks balances tCur dur hne
            have hg := hgrown x hx
            exact ⟨hg.covered,by rw [hg.base,hbase],by rw [hg.unlocked,hunlocked],
              fun tier => by rw [hg.locked,hlocked]⟩
        · intro x hx
          have hne : x ≠ w := fun he => hx (he ▸ List.mem_cons_self)
          have hnot : x ∉ rest := fun hmem => hx (List.mem_cons_of_mem _ hmem)
          obtain ⟨hbase,hunlocked,hlocked⟩ := s.grow_other locks balances tCur dur hne
          obtain ⟨hbase',hunlocked',hlocked'⟩ := hsame x hnot
          exact ⟨by rw [hbase',hbase],by rw [hunlocked',hunlocked],
            fun tier => by rw [hlocked',hlocked]⟩
      · intro e h
        obtain ⟨x,hx,hlt,he⟩ := herror e h
        exact ⟨x,List.mem_cons_of_mem _ hx,hlt,he⟩

end Measuring

section Sweeping

variable {opening : Text → ℤ} {transfers : List ConfirmedTransfer} {locks : List LockRecord}
  {relevant : List Text} {start stop : ℤ} {w : Text}

/-- The times at which a balance or a lock can change. -/
def Event (transfers : List ConfirmedTransfer) (locks : List LockRecord) (x : ℤ) : Prop :=
  (∃ tr ∈ transfers, tr.timestamp = x) ∨ ∃ l ∈ locks, l.startTimestamp = x ∨ bonusEnd l = x

/-- The wallet neither holds, moves nor locks anything. -/
structure Idle (opening : Text → ℤ) (transfers : List ConfirmedTransfer) (locks : List LockRecord)
    (w : Text) : Prop where
  opening : opening w = 0
  moves : ∀ tr ∈ transfers, (tr.source ≠ ZERO_ADDRESS → tr.source ≠ w) ∧
    (tr.target ≠ ZERO_ADDRESS → tr.target ≠ w)
  locks : ∀ l ∈ locks, l.wallet ≠ w

/-- What the sweep over an epoch relies on. -/
structure Epoch (opening : Text → ℤ) (transfers : List ConfirmedTransfer) (locks : List LockRecord)
    (relevant : List Text) (start : ℤ) : Prop where
  sorted : transfers.Pairwise (fun a b => a.timestamp ≤ b.timestamp)
  started : ∀ tr ∈ transfers, start ≤ tr.timestamp
  distinct : relevant.Nodup
  idle : ∀ w, w ∉ relevant → Idle opening transfers locks w

theorem move_idle {balances : Text → ℤ} {tr : ConfirmedTransfer}
    (hsource : tr.source ≠ ZERO_ADDRESS → tr.source ≠ w)
    (htarget : tr.target ≠ ZERO_ADDRESS → tr.target ≠ w) : move balances tr w = balances w := by
  unfold move
  by_cases hs : tr.source = ZERO_ADDRESS <;> by_cases ht : tr.target = ZERO_ADDRESS
  · simp [hs,ht]
  · simp [hs,ht,set_other _ (Ne.symm (htarget ht))]
  · simp [hs,ht,set_other _ (Ne.symm (hsource hs))]
  · simp [hs,ht,set_other _ (Ne.symm (htarget ht)),set_other _ (Ne.symm (hsource hs))]

theorem Idle.balance (h : Idle opening transfers locks w) (t : ℤ) :
    balanceAt opening transfers t w = 0 := by
  have hfold : ∀ (trs : List ConfirmedTransfer) (balances : Text → ℤ), (∀ tr ∈ trs, tr ∈ transfers) →
      trs.foldl move balances w = balances w := by
    intro trs
    induction trs with
    | nil =>
      intro balances _
      rfl
    | cons tr rest ih =>
      intro balances hsub
      obtain ⟨hsource,htarget⟩ := h.moves tr (hsub tr (by simp))
      rw [List.foldl_cons,ih _ (fun x hx => hsub x (List.mem_cons_of_mem _ hx))]
      exact move_idle hsource htarget
  rw [balanceAt,hfold _ _ (fun tr htr => List.mem_of_mem_filter htr)]
  exact h.opening

theorem Idle.locked (h : Idle opening transfers locks w) (t : ℤ) : activeLockedAt locks w t = 0 := by
  have hnone : locks.filter (fun l => l.wallet = w ∧ ActiveAt l t) = [] := by
    rw [List.filter_eq_nil_iff]
    intro l hl
    simp [h.locks l hl]
  rw [activeLockedAt,hnone]
  rfl

/-- Between events the balances stay. -/
theorem balanceAt_quiet {a b t : ℤ} (hquiet : ∀ x, Event transfers locks x → a < x → b ≤ x)
    (hat : a ≤ t) (htb : t < b) : balanceAt opening transfers t = balanceAt opening transfers a := by
  have hfilter : transfers.filter (fun tr => tr.timestamp ≤ t) =
      transfers.filter (fun tr => tr.timestamp ≤ a) := by
    apply List.filter_congr
    intro tr htr
    have hx := hquiet tr.timestamp (Or.inl ⟨tr,htr,rfl⟩)
    simp only [decide_eq_decide]
    omega
  rw [balanceAt,hfilter,balanceAt]

/-- Between events the active locks stay. -/
theorem activeAt_quiet {a b t : ℤ} (hquiet : ∀ x, Event transfers locks x → a < x → b ≤ x)
    (hat : a ≤ t) (htb : t < b) {l : LockRecord} (hl : l ∈ locks) : ActiveAt l t ↔ ActiveAt l a := by
  have hstart := hquiet l.startTimestamp (Or.inr ⟨l,hl,Or.inl rfl⟩)
  have hend := hquiet (bonusEnd l) (Or.inr ⟨l,hl,Or.inr rfl⟩)
  rw [activeAt_iff,activeAt_iff]
  omega

theorem lockedAt_quiet {a b t : ℤ} (hquiet : ∀ x, Event transfers locks x → a < x → b ≤ x)
    (hat : a ≤ t) (htb : t < b) (w : Text) (tier : LockTier) :
    lockedAt locks w tier t = lockedAt locks w tier a := by
  unfold lockedAt
  congr 2
  apply List.filter_congr
  intro l hl
  simp only [activeAt_quiet hquiet hat htb hl]

theorem activeLockedAt_quiet {a b t : ℤ} (hquiet : ∀ x, Event transfers locks x → a < x → b ≤ x)
    (hat : a ≤ t) (htb : t < b) (w : Text) : activeLockedAt locks w t = activeLockedAt locks w a := by
  unfold activeLockedAt
  congr 2
  apply List.filter_congr
  intro l hl
  simp only [activeAt_quiet hquiet hat htb hl]

/-- An element that is in neither end of a list is in its middle. -/
theorem exists_middle {α : Type} {xs ys zs done rest : List α} {x : α}
    (h : xs ++ (ys ++ zs) = done ++ x::rest) (hxs : x ∉ xs) (hzs : x ∉ zs) :
    ∃ ys₁ ys₂, ys = ys₁ ++ x::ys₂ ∧ done = xs ++ ys₁ := by
  induction xs generalizing done with
  | nil =>
    induction ys generalizing done with
    | nil =>
      have hmem : x ∈ zs := by
        have hzs' : zs = done ++ x::rest := h
        simp [hzs']
      exact absurd hmem hzs
    | cons y ys ih =>
      cases done with
      | nil =>
        obtain ⟨rfl,-⟩ := List.cons.inj h
        exact ⟨[],ys,rfl,rfl⟩
      | cons z done =>
        obtain ⟨rfl,htail⟩ := List.cons.inj h
        obtain ⟨ys₁,ys₂,rfl,hdone⟩ := ih htail
        exact ⟨y::ys₁,ys₂,rfl,by rw [hdone]; rfl⟩
  | cons y xs ih =>
    cases done with
    | nil =>
      obtain ⟨rfl,-⟩ := List.cons.inj h
      exact absurd List.mem_cons_self hxs
    | cons z done =>
      obtain ⟨rfl,htail⟩ := List.cons.inj h
      obtain ⟨ys₁,ys₂,hys,hdone⟩ := ih htail (fun hmem => hxs (List.mem_cons_of_mem _ hmem))
      exact ⟨ys₁,ys₂,hys,by rw [hdone]; rfl⟩

/-- The sweep reached second `now`: the sums so far, and no offence so far. -/
structure Reached (opening : Text → ℤ) (transfers : List ConfirmedTransfer)
    (locks : List LockRecord) (relevant : List Text) (start now : ℤ) (s : Progress) : Prop where
  start_le : start ≤ now
  applied : ∃ done, transfers = done ++ s.pending ∧ (∀ tr ∈ done, tr.timestamp < now) ∧
    s.balances = done.foldl move opening
  later : ∀ tr ∈ s.pending, now ≤ tr.timestamp
  covered : ∀ t, t < now → ¬Overdrawn opening transfers t
  held : ∀ t, start ≤ t → t < now → ¬Overlocked opening transfers locks t
  base : ∀ w ∈ relevant, s.seconds.base w =
    ∑ t ∈ Finset.Ico start now, balanceAt opening transfers t w
  unlocked : ∀ w ∈ relevant, s.seconds.unlocked w =
    ∑ t ∈ Finset.Ico start now, (balanceAt opening transfers t w-activeLockedAt locks w t)
  locked : ∀ w ∈ relevant, ∀ tier, s.seconds.locked w tier =
    ∑ t ∈ Finset.Ico start now, lockedAt locks w tier t

/-- An error names the first offence. -/
inductive FirstOffence (opening : Text → ℤ) (transfers : List ConfirmedTransfer)
    (locks : List LockRecord) (start stop : ℤ) : ProofOfDistributionError → Prop
  | overdrawn {w identity : Text} {t : ℤ} (hstart : start ≤ t)
      (hover : Overdrawn opening transfers t)
      (hfirst : ∀ u, start ≤ u → u < t → ¬Overlocked opening transfers locks u) :
      FirstOffence opening transfers locks start stop (.negativeBalance w identity)
  | overlocked {w : Text} {t : ℤ} (hstart : start ≤ t) (hstop : t < stop)
      (hover : Overlocked opening transfers locks t)
      (hfirst : ∀ u, u ≤ t → ¬Overdrawn opening transfers u) :
      FirstOffence opening transfers locks start stop (.lockExceedsBalance w)

/-- The transfers of a second are applied, or the second is overdrawn. -/
theorem Reached.due {a : ℤ} {s : Progress} (stop : ℤ) (he : Epoch opening transfers locks relevant start)
    (h : Reached opening transfers locks relevant start a s) :
    (∀ balances' rest, applyDue a s.balances s.pending = .ok (balances',rest) →
      balances' = balanceAt opening transfers a ∧ ¬Overdrawn opening transfers a ∧
      (∀ tr ∈ rest, a < tr.timestamp) ∧ ∃ done, transfers = done ++ rest ∧
        (∀ tr ∈ done, tr.timestamp ≤ a) ∧ balances' = done.foldl move opening) ∧
    ∀ e, applyDue a s.balances s.pending = .error e →
      FirstOffence opening transfers locks start stop e := by
  obtain ⟨done,hdone,hearlier,hbalances⟩ := h.applied
  obtain ⟨hok,herror⟩ := @applyDue_spec s.balances a s.pending
  constructor
  · intro balances' rest hrest
    obtain ⟨due,hdue,htimes,hhead,hfold,hcover⟩ := hok balances' rest hrest
    have hsorted : rest.Pairwise (fun x y => x.timestamp ≤ y.timestamp) := by
      have hall := he.sorted
      rw [hdone,hdue] at hall
      exact (List.pairwise_append.1 (List.pairwise_append.1 hall).2.1).2.1
    -- the first of the rest is later, so all of them are
    have hlater : ∀ tr ∈ rest, a < tr.timestamp := by
      cases rest with
      | nil => exact fun tr htr => absurd htr List.not_mem_nil
      | cons x rest =>
        have hx : a < x.timestamp := by
          have hne := hhead x rfl
          have hle := h.later x (by rw [hdue]; simp)
          omega
        intro tr htr
        rcases List.mem_cons.1 htr with rfl | htr
        · exact hx
        · exact hx.trans_le ((List.pairwise_cons.1 hsorted).1 tr htr)
    have hfold' : balances' = (done ++ due).foldl move opening := by
      rw [List.foldl_append,← hbalances]
      exact hfold
    have hupto : ∀ tr ∈ done ++ due, tr.timestamp ≤ a := by
      intro tr htr
      rcases List.mem_append.1 htr with htr | htr
      · exact (hearlier tr htr).le
      · exact (htimes tr htr).le
    have hfilter : transfers.filter (fun tr => tr.timestamp ≤ a) = done ++ due := by
      rw [hdone,hdue,← List.append_assoc,List.filter_append]
      have hall : (done ++ due).filter (fun tr => tr.timestamp ≤ a) = done ++ due := by
        rw [List.filter_eq_self]
        intro tr htr
        exact decide_eq_true (hupto tr htr)
      have hnone : rest.filter (fun tr => tr.timestamp ≤ a) = [] := by
        rw [List.filter_eq_nil_iff]
        intro tr htr
        have hlt := hlater tr htr
        simpa using hlt
      rw [hall,hnone,List.append_nil]
    refine ⟨by rw [balanceAt,hfilter]; exact hfold',?_,hlater,done ++ due,?_,hupto,hfold'⟩
    · rintro ⟨before,tr,after,heq,htime,hsource,hlt⟩
      rw [hdone,hdue] at heq
      obtain ⟨due₁,due₂,hsplit,rfl⟩ := exists_middle heq
        (fun hmem => (hearlier tr hmem).ne htime) (fun hmem => (hlater tr hmem).ne' htime)
      have hle := hcover due₁ tr due₂ hsplit hsource
      rw [List.foldl_append,← hbalances] at hlt
      omega
    · rw [hdone,hdue,List.append_assoc]
  · intro e herr
    obtain ⟨before,tr,rest,hpending,htime,hsource,hlt,rfl⟩ := herror e herr
    refine .overdrawn h.start_le ⟨done ++ before,tr,rest,?_,htime,hsource,?_⟩ h.held
    · rw [hdone,hpending,List.append_assoc]
    · rw [List.foldl_append,← hbalances]
      exact hlt

/-- At a second whose transfers are applied, a wallet that is not relevant locks nothing. -/
theorem Epoch.overlocked_relevant {t : ℤ} (he : Epoch opening transfers locks relevant start)
    (hall : ∀ w ∈ relevant, activeLockedAt locks w t ≤ balanceAt opening transfers t w) :
    ¬Overlocked opening transfers locks t := by
  rintro ⟨w,hlt⟩
  by_cases hw : w ∈ relevant
  · have hle := hall w hw
    omega
  · have hidle := he.idle w hw
    rw [hidle.balance,hidle.locked] at hlt
    exact lt_irrefl _ hlt

/-- A visit reaches the next breakpoint or stops at the first offence. -/
theorem visit_spec (he : Epoch opening transfers locks relevant start) (a b : ℤ) (s : Progress)
    (hab : a < b) (hbs : b ≤ stop) (hquiet : ∀ x, Event transfers locks x → a < x → b ≤ x)
    (h : Reached opening transfers locks relevant start a s) :
    (∀ s', visit (locksByWallet locks) relevant a b s = .ok s' →
      Reached opening transfers locks relevant start b s') ∧
    ∀ e, visit (locksByWallet locks) relevant a b s = .error e →
      FirstOffence opening transfers locks start stop e := by
  obtain ⟨hok,herror⟩ := h.due stop he
  cases hdue : applyDue a s.balances s.pending with
  | error e =>
    have hvisit : visit (locksByWallet locks) relevant a b s = .error e := by
      simp [visit,hdue,bind,Except.bind]
    rw [hvisit]
    refine ⟨fun s' hs' => (by cases hs'),fun e' he' => ?_⟩
    cases he'
    exact herror e hdue
  | ok result =>
    obtain ⟨balances,rest⟩ := result
    obtain ⟨hbalances,hcovered,hlater,hdone⟩ := hok balances rest hdue
    obtain ⟨hgrown,hexceeds⟩ := @measure_spec locks balances a (b-a) s.seconds relevant
      he.distinct
    have hvisit : visit (locksByWallet locks) relevant a b s =
        (measure (locksByWallet locks) balances a (b-a) s.seconds relevant).map
          (fun seconds => ⟨balances,rest,seconds⟩) := by
      have hdur : ¬b-a ≤ 0 := by omega
      simp only [visit,hdue,ok_bind,if_neg hdur]
      cases measure (locksByWallet locks) balances a (b-a) s.seconds relevant <;> rfl
    rw [hvisit]
    have hcovered' : ∀ t, t ≤ a → ¬Overdrawn opening transfers t := by
      intro t ht
      rcases ht.lt_or_eq with hlt | rfl
      · exact h.covered t hlt
      · exact hcovered
    cases hmeasure : measure (locksByWallet locks) balances a (b-a) s.seconds relevant with
    | error e =>
      refine ⟨fun s' hs' => (by cases hs'),fun e' he' => ?_⟩
      cases he'
      obtain ⟨w,-,hlt,rfl⟩ := hexceeds e hmeasure
      refine .overlocked h.start_le (by omega) ⟨w,?_⟩ hcovered'
      rw [← hbalances]
      exact hlt
    | ok seconds =>
      refine ⟨fun s' hs' => ?_,fun e' he' => (by cases he')⟩
      cases hs'
      have hgrown' := (hgrown seconds hmeasure).1
      have hbalance : ∀ t, a ≤ t → t < b →
          balanceAt opening transfers t = balanceAt opening transfers a :=
        fun t hat htb => balanceAt_quiet hquiet hat htb
      refine ⟨h.start_le.trans hab.le,?_,?_,?_,?_,?_,?_,?_⟩
      · obtain ⟨done,htransfers,hupto,hfold⟩ := hdone
        exact ⟨done,htransfers,fun tr htr => (hupto tr htr).trans_lt hab,hfold⟩
      · intro tr htr
        obtain ⟨done,htransfers,-,-⟩ := hdone
        have hmem : tr ∈ transfers := by
          rw [htransfers]
          exact List.mem_append_right _ htr
        exact hquiet tr.timestamp (Or.inl ⟨tr,hmem,rfl⟩) (hlater tr htr)
      · intro t ht hover
        by_cases hta : t ≤ a
        · exact hcovered' t hta hover
        · obtain ⟨before,tr,after,heq,htime,-,-⟩ := hover
          have hmem : tr ∈ transfers := by simp [heq]
          have hle := hquiet t (Or.inl ⟨tr,hmem,htime⟩) (by omega)
          omega
      · intro t hst htb
        by_cases hta : t < a
        · exact h.held t hst hta
        · apply he.overlocked_relevant
          intro w hw
          rw [hbalance t (by omega) htb,activeLockedAt_quiet hquiet (by omega) htb w,← hbalances]
          exact (hgrown' w hw).covered
      · intro w hw
        rw [Sweep.sum_Ico_extend h.start_le hab.le
          (fun t hat htb => congrFun (hbalance t hat htb) w),← h.base w hw,← hbalances]
        exact (hgrown' w hw).base
      · intro w hw
        have hconst : ∀ t, a ≤ t → t < b →
            balanceAt opening transfers t w-activeLockedAt locks w t =
              balanceAt opening transfers a w-activeLockedAt locks w a := by
          intro t hat htb
          rw [hbalance t hat htb,activeLockedAt_quiet hquiet hat htb w]
        rw [Sweep.sum_Ico_extend h.start_le hab.le hconst,← h.unlocked w hw,← hbalances]
        exact (hgrown' w hw).unlocked
      · intro w hw tier
        rw [Sweep.sum_Ico_extend h.start_le hab.le
          (fun t hat htb => lockedAt_quiet hquiet hat htb w tier),← h.locked w hw tier]
        exact (hgrown' w hw).locked tier

/-- Before the first breakpoint nothing happened. -/
theorem Epoch.reached (he : Epoch opening transfers locks relevant start) :
    Reached opening transfers locks relevant start start ⟨opening,transfers,.zero⟩ := by
  refine ⟨le_rfl,⟨[],rfl,by simp,rfl⟩,he.started,?_,fun t hst hts => absurd hts (by omega),?_,?_,?_⟩
  · rintro t ht ⟨before,tr,after,heq,htime,-,-⟩
    have hstarted := he.started tr (by simp [heq])
    omega
  · simp [Seconds.zero]
  · simp [Seconds.zero]
  · simp [Seconds.zero]

end Sweeping

end Twab
end BpsProtocol
