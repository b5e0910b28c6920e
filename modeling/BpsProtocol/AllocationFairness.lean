import BpsProtocol.Allocation
import BpsProtocol.Lib.FloorShares
import BpsProtocol.Lib.Pairing
import BpsProtocol.Lib.Reorder
import BpsProtocol.MerkleSoundness
import BpsProtocol.SnapshotClaims
import BpsProtocol.SnapshotCompleteness
import BpsProtocol.StockVault

/-! Conservation and fairness of an allocation.
The loop is brought to a closed form: the floor shares of the eligible wallets of positive
weight, without the zero shares.  Everything else is read off that form. -/
namespace BpsProtocol
namespace Allocation

open Checked Mapping Shared HexText CycleFixture Twab FloorShares

section Loop

variable {cycle : CycleConfig} {asset : AcquiredAsset} {weights : WeightMap} {pool totalWeight : ℤ}

def weighs (weights : WeightMap) (wallet : Text) : Bool := 0 < effectiveWeight weights wallet

/-- The wallet with the floor of its share. -/
def allotment (pool : ℤ) (weights : WeightMap) (totalWeight : ℤ) (wallet : Text) :
    WalletAllocation :=
  ⟨wallet,share pool totalWeight (effectiveWeight weights wallet)⟩

/-- The positive shares in the order of the wallets. -/
def allotments (pool : ℤ) (weights : WeightMap) (totalWeight : ℤ) (wallets : List Text) :
    List WalletAllocation :=
  ((wallets.filter (weighs weights)).map (allotment pool weights totalWeight)).filter
    (fun p => 0 < p.amount)

def entitlementOf (cycle : CycleConfig) (asset : AcquiredAsset) (p : WalletAllocation) :
    Entitlement :=
  ⟨cycle.cycleId,p.wallet,asset.tokenAddress,p.amount⟩

/-- Division of bigints and floor division have the same positive values. -/
theorem tdiv_cases (n : ℤ) {d : ℤ} (hd : 0 < d) :
    n.tdiv d = n/d ∨ (n.tdiv d ≤ 0 ∧ n/d ≤ 0) := by
  by_cases hn : 0 ≤ n
  · exact Or.inl (Int.tdiv_eq_ediv_of_nonneg hn)
  · right
    have hneg : 0 ≤ (-n).tdiv d := Int.tdiv_nonneg (by omega) hd.le
    rw [Int.neg_tdiv] at hneg
    exact ⟨by omega,(Int.ediv_neg_of_neg_of_pos (by omega) hd).le⟩

theorem allotments_singleton (wallet : Text) : allotments pool weights totalWeight [wallet] =
    if 0 < effectiveWeight weights wallet ∧
        0 < share pool totalWeight (effectiveWeight weights wallet) then
      [allotment pool weights totalWeight wallet]
    else [] := by
  by_cases hweight : 0 < effectiveWeight weights wallet
  · by_cases hshare : 0 < share pool totalWeight (effectiveWeight weights wallet)
    · simp [allotments,weighs,allotment,hweight,hshare]
    · simp [allotments,weighs,allotment,hweight,hshare]
  · simp [allotments,weighs,hweight]

theorem allotWallet_eq (htotal : 0 < totalWeight) (s : Allotted) (wallet : Text) :
    allotWallet cycle asset pool weights totalWeight s wallet = .ok {
      allocated := s.allocated+
        ((allotments pool weights totalWeight [wallet]).map WalletAllocation.amount).sum
      walletAllocations := s.walletAllocations ++ allotments pool weights totalWeight [wallet]
      entitlements := s.entitlements ++
        (allotments pool weights totalWeight [wallet]).map (entitlementOf cycle asset) } := by
  rw [allotments_singleton]
  by_cases hweight : effectiveWeight weights wallet ≤ 0
  · simp [allotWallet,hweight,Int.not_lt.2 hweight,pure,Except.pure]
  · have hdiv : mulDivFloor pool (effectiveWeight weights wallet) totalWeight =
        .ok ((pool*effectiveWeight weights wallet).tdiv totalWeight) :=
      mulDivFloor_eq_ok.2 ⟨htotal,rfl⟩
    have hcases := tdiv_cases (pool*effectiveWeight weights wallet) htotal
    simp only [allotWallet,if_neg hweight,hdiv,bind,Except.bind,pure,Except.pure]
    by_cases hzero : (pool*effectiveWeight weights wallet).tdiv totalWeight ≤ 0
    · have hshare : ¬0 < share pool totalWeight (effectiveWeight weights wallet) := by
        unfold share
        omega
      simp [hshare,hzero]
    · have hshare : (pool*effectiveWeight weights wallet).tdiv totalWeight =
          share pool totalWeight (effectiveWeight weights wallet) := by
        unfold share
        omega
      rw [hshare] at hzero ⊢
      have hpos : 0 < share pool totalWeight (effectiveWeight weights wallet) := by omega
      simp [Int.not_le.1 hweight,allotment,hpos,hzero,entitlementOf]

theorem allotments_cons (wallet : Text) (rest : List Text) :
    allotments pool weights totalWeight (wallet::rest) =
      allotments pool weights totalWeight [wallet] ++ allotments pool weights totalWeight rest := by
  rw [← List.singleton_append]
  simp only [allotments,List.filter_append,List.map_append]

/-- The loop in closed form. -/
theorem allotAll_eq (htotal : 0 < totalWeight) (s : Allotted) (wallets : List Text) :
    allotAll cycle asset pool weights totalWeight s wallets = .ok {
      allocated := s.allocated+
        ((allotments pool weights totalWeight wallets).map WalletAllocation.amount).sum
      walletAllocations := s.walletAllocations ++ allotments pool weights totalWeight wallets
      entitlements := s.entitlements ++
        (allotments pool weights totalWeight wallets).map (entitlementOf cycle asset) } := by
  induction wallets generalizing s with
  | nil => simp [allotAll,allotments]
  | cons wallet rest ih =>
    rw [allotments_cons,allotAll,allotWallet_eq htotal]
    simp only [bind,Except.bind]
    rw [ih]
    simp only [List.map_append,List.sum_append,List.append_assoc,add_assoc]

end Loop

section Asset

/-- What the eligible wallets receive of a pool. -/
def received (pool : ℤ) (weights : WeightMap) (totalWeight : ℤ) (wallets : List Text) :
    List WalletAllocation :=
  if 0 < totalWeight then allotments pool weights totalWeight wallets else []

def poolOf (acquired : ℤ) : ℤ := (acquired*PARTICIPANT_POOL_BPS).tdiv BPS_DENOMINATOR

variable {cycle : CycleConfig} {asset : AcquiredAsset} {weights : WeightMap} {totalWeight : ℤ}
  {wallets : List Text} {a : AssetAllocation}

theorem allot_eq (pool : ℤ) (wallets : List Text) :
    allot cycle asset pool weights totalWeight wallets = .ok {
      allocated := ((received pool weights totalWeight wallets).map WalletAllocation.amount).sum
      walletAllocations := received pool weights totalWeight wallets
      entitlements := (received pool weights totalWeight wallets).map
        (entitlementOf cycle asset) } := by
  by_cases htotal : 0 < totalWeight
  · simp [allot,received,htotal,allotAll_eq htotal]
  · simp [allot,received,htotal]

/-- An allocation in closed form; the only refusal is of an overspent pool. -/
theorem allocateAsset_eq_ok :
    allocateAsset cycle asset wallets weights totalWeight = .ok a ↔
      let pool := poolOf asset.acquiredRawAmount
      let shares := received pool weights totalWeight wallets
      let allocated := (shares.map WalletAllocation.amount).sum
      allocated ≤ pool ∧ a = {
        asset
        acquired := asset.acquiredRawAmount
        participantPool := pool
        strategicReserve := asset.acquiredRawAmount-pool
        allocated
        distributionDust := pool-allocated
        walletAllocations := shares
        entitlements := shares.map (entitlementOf cycle asset) } := by
  have hpool : mulDivFloor asset.acquiredRawAmount PARTICIPANT_POOL_BPS BPS_DENOMINATOR =
      .ok (poolOf asset.acquiredRawAmount) := mulDivFloor_eq_ok.2 ⟨by decide,rfl⟩
  simp only [allocateAsset,hpool,allot_eq,bind_eq_ok,Except.ok.injEq,exists_eq_left',revertIf_eq_ok,
    exists_const,pure_eq_ok,add_sub_cancel,not_not,true_and,Int.not_lt]
  exact and_congr_right fun _ => eq_comm

end Asset

section Amounts

variable {weights : WeightMap} {pool totalWeight : ℤ} {wallets : List Text}

/-- What a list of allocations gives one wallet; nothing where it is not listed. -/
def amountIn (shares : List WalletAllocation) (wallet : Text) : ℤ :=
  ((shares.find? (fun p => p.wallet = wallet)).map WalletAllocation.amount).getD 0

theorem mem_allotments {p : WalletAllocation} :
    p ∈ allotments pool weights totalWeight wallets ↔
      p.wallet ∈ wallets ∧ 0 < effectiveWeight weights p.wallet ∧ 0 < p.amount ∧
        p.amount = share pool totalWeight (effectiveWeight weights p.wallet) := by
  simp only [allotments,List.mem_filter,List.mem_map,weighs,decide_eq_true_eq]
  constructor
  · rintro ⟨⟨wallet,⟨hmem,hweight⟩,rfl⟩,hpos⟩
    exact ⟨hmem,hweight,hpos,rfl⟩
  · rintro ⟨hmem,hweight,hpos,heq⟩
    refine ⟨⟨p.wallet,⟨hmem,hweight⟩,?_⟩,hpos⟩
    rw [allotment,← heq]

/-- Every listed wallet is given its own share. -/
theorem amountIn_allotments (wallet : Text) :
    amountIn (allotments pool weights totalWeight wallets) wallet =
      if wallet ∈ wallets ∧ 0 < effectiveWeight weights wallet ∧
          0 < share pool totalWeight (effectiveWeight weights wallet) then
        share pool totalWeight (effectiveWeight weights wallet)
      else 0 := by
  rw [amountIn]
  cases hfind : (allotments pool weights totalWeight wallets).find?
      (fun p => p.wallet = wallet) with
  | none =>
    rw [if_neg]
    · rfl
    · rintro ⟨hmem,hweight,hpos⟩
      have hlisted : allotment pool weights totalWeight wallet ∈
          allotments pool weights totalWeight wallets :=
        mem_allotments.2 ⟨hmem,hweight,hpos,rfl⟩
      have hnot := List.find?_eq_none.1 hfind _ hlisted
      simp [allotment] at hnot
  | some p =>
    have hwallet : p.wallet = wallet := by simpa using List.find?_some hfind
    obtain ⟨hmem,hweight,hpos,heq⟩ := mem_allotments.1 (List.mem_of_find?_eq_some hfind)
    rw [hwallet] at hmem hweight heq
    rw [heq] at hpos
    rw [if_pos ⟨hmem,hweight,hpos⟩]
    exact heq

theorem sum_filter_pos {shares : List WalletAllocation} (h : ∀ p ∈ shares, 0 ≤ p.amount) :
    ((shares.filter (fun p => 0 < p.amount)).map WalletAllocation.amount).sum =
      (shares.map WalletAllocation.amount).sum := by
  induction shares with
  | nil => rfl
  | cons p rest ih =>
    have hrest := ih (fun q hq => h q (List.mem_cons_of_mem _ hq))
    have hp := h p List.mem_cons_self
    by_cases hpos : 0 < p.amount
    · simp [hpos,hrest]
    · have hzero : p.amount = 0 := by omega
      simp [hzero,hrest]

/-- The weights of the wallets that weigh anything. -/
def positiveWeights (weights : WeightMap) (wallets : List Text) : List ℤ :=
  (wallets.filter (weighs weights)).map (effectiveWeight weights)

/-- Leaving the zero shares out loses nothing. -/
theorem sum_allotments (hpool : 0 ≤ pool) (htotal : 0 < totalWeight) :
    ((allotments pool weights totalWeight wallets).map WalletAllocation.amount).sum =
      ((positiveWeights weights wallets).map (share pool totalWeight)).sum := by
  rw [allotments,sum_filter_pos,positiveWeights,List.map_map,List.map_map]
  · rfl
  · intro p hp
    simp only [List.mem_map,List.mem_filter,weighs,decide_eq_true_eq] at hp
    obtain ⟨wallet,⟨-,hweight⟩,rfl⟩ := hp
    exact share_nonneg hpool htotal hweight.le

/-- Dropping what weighs nothing or less cannot lower the sum. -/
theorem total_le_sum_positive (weights : WeightMap) (wallets : List Text) :
    total WalletWeight.effectiveWeight weights wallets ≤ (positiveWeights weights wallets).sum := by
  induction wallets with
  | nil => rfl
  | cons wallet rest ih =>
    simp only [total,positiveWeights,List.map_cons,List.sum_cons,List.filter_cons] at ih ⊢
    by_cases hweight : 0 < effectiveWeight weights wallet
    · simp only [weighs,hweight,decide_true,if_true,List.map_cons,List.sum_cons]
      exact Int.add_le_add_left ih _
    · have hle : readWeight WalletWeight.effectiveWeight weights wallet ≤ 0 := Int.not_lt.1 hweight
      simp only [weighs,hweight,decide_false,Bool.false_eq_true,if_false]
      exact (Int.add_le_add hle ih).trans_eq (zero_add _)

theorem sum_positive_eq_total (h : ∀ wallet ∈ wallets, 0 ≤ effectiveWeight weights wallet) :
    (positiveWeights weights wallets).sum =
      total WalletWeight.effectiveWeight weights wallets := by
  induction wallets with
  | nil => rfl
  | cons wallet rest ih =>
    have hrest := ih (fun w hw => h w (List.mem_cons_of_mem _ hw))
    have hwallet := h wallet List.mem_cons_self
    simp only [total,positiveWeights,List.map_cons,List.sum_cons,List.filter_cons] at hrest ⊢
    by_cases hweight : 0 < effectiveWeight weights wallet
    · simp only [weighs,hweight,decide_true,if_true,List.map_cons,List.sum_cons]
      rw [hrest]
      rfl
    · have hzero : readWeight WalletWeight.effectiveWeight weights wallet = 0 :=
        le_antisymm (Int.not_lt.1 hweight) hwallet
      simp only [weighs,hweight,decide_false,Bool.false_eq_true,if_false,hrest,hzero,zero_add]

/-- Nobody is due anything for no weight. -/
theorem sum_positive_shares (h : ∀ wallet ∈ wallets, 0 ≤ effectiveWeight weights wallet) :
    ((positiveWeights weights wallets).map (share pool totalWeight)).sum =
      ((wallets.map (effectiveWeight weights)).map (share pool totalWeight)).sum := by
  induction wallets with
  | nil => rfl
  | cons wallet rest ih =>
    have hrest := ih (fun w hw => h w (List.mem_cons_of_mem _ hw))
    have hwallet := h wallet List.mem_cons_self
    simp only [positiveWeights,List.map_cons,List.sum_cons,List.filter_cons] at hrest ⊢
    by_cases hweight : 0 < effectiveWeight weights wallet
    · simp only [weighs,hweight,decide_true,if_true,List.map_cons,List.sum_cons]
      rw [hrest]
    · have hzero : effectiveWeight weights wallet = 0 := le_antisymm (Int.not_lt.1 hweight) hwallet
      simp only [weighs,hzero,lt_self_iff_false,decide_false,Bool.false_eq_true,if_false,hrest,
        share,mul_zero,Int.zero_ediv,zero_add]

end Amounts

section Order

theorem weightMap_perm {weights weights' : List WalletWeight}
    (hnodup : (weights.map WalletWeight.wallet).Nodup) (h : weights.Perm weights') :
    weightMap weights' = weightMap weights :=
  (Reorder.foldl_set_perm h hnodup _).symm

theorem sortWallets_pairwise (wallets : List Text) :
    (sortWallets wallets).Pairwise (fun a b => List.le a b) := by
  have : Std.Total (fun a b : Text => List.le a b) := ⟨fun a b => List.le_total a b⟩
  have : IsTrans Text (fun a b => List.le a b) := ⟨fun _ _ _ hab hbc => List.le_trans hab hbc⟩
  exact List.pairwise_insertionSort _ wallets

theorem sortWallets_perm (wallets : List Text) : (sortWallets wallets).Perm wallets :=
  List.perm_insertionSort _ _

theorem sortWallets_eq {wallets wallets' : List Text} (h : wallets.Perm wallets') :
    sortWallets wallets' = sortWallets wallets :=
  Reorder.sortByText_eq id h fun _ _ _ _ heq => heq

theorem isEligible_congr {cycle : CycleConfig} {excluded excluded' : List Text}
    (h : excluded.Perm excluded') : isEligible cycle excluded' = isEligible cycle excluded := by
  funext r
  simp only [isEligible,h.mem_iff]

/-- Only the list of the exclusions themselves keeps their order. -/
theorem resolveEligibility_perm {cycle : CycleConfig} {weights : WeightMap}
    {excludedAddresses excludedAddresses' : List ExcludedAddress}
    {eligibility eligibility' : List EligibilityRecord}
    (hexcluded : excludedAddresses.Perm excludedAddresses')
    (heligibility : eligibility.Perm eligibility') :
    resolveEligibility cycle excludedAddresses' eligibility' weights =
      { resolveEligibility cycle excludedAddresses eligibility weights with
        excluded := excludedAddresses'.map ExcludedAddress.address } := by
  have hwallets : sortWallets ((eligibility'.filter (isEligible cycle
        (excludedAddresses'.map ExcludedAddress.address))).map EligibilityRecord.wallet) =
      sortWallets ((eligibility.filter (isEligible cycle
        (excludedAddresses.map ExcludedAddress.address))).map EligibilityRecord.wallet) := by
    rw [isEligible_congr (hexcluded.map _)]
    exact sortWallets_eq ((heligibility.filter _).map _)
  simp only [resolveEligibility,hwallets]

end Order

section Conservation

variable {cycle : CycleConfig} {asset : AcquiredAsset} {weights : WeightMap} {totalWeight : ℤ}
  {wallets : List Text} {a : AssetAllocation}

/-- Nothing of the acquired amount is lost, and the pool is the vault's own share. -/
structure Conserved (asset : AcquiredAsset) (a : AssetAllocation) : Prop where
  dust : (a.walletAllocations.map WalletAllocation.amount).sum+a.distributionDust =
    a.participantPool
  reserve : a.participantPool+a.strategicReserve = asset.acquiredRawAmount
  vault : ∀ n : ℕ, asset.acquiredRawAmount = n →
    a.participantPool = StockVault.distributionShare n ∧
      a.strategicReserve = (n-StockVault.distributionShare n : ℕ)

theorem poolOf_eq (n : ℕ) : poolOf n = StockVault.distributionShare n := by
  have hpool : poolOf n = ((n*8000/10000 : ℕ) : ℤ) := by
    rw [poolOf,PARTICIPANT_POOL_BPS,BPS_DENOMINATOR,Int.tdiv_eq_ediv_of_nonneg (by omega)]
    push_cast
    rfl
  rw [hpool,StockVault.distributionShare,StockVault.distributionPercent,
    StockVault.splitDenominator]
  congr 1
  omega

theorem conserved (h : allocateAsset cycle asset wallets weights totalWeight = .ok a) :
    Conserved asset a := by
  obtain ⟨-,rfl⟩ := allocateAsset_eq_ok.1 h
  refine ⟨add_sub_cancel _ _,add_sub_cancel _ _,fun n hn => ?_⟩
  simp only
  rw [hn,poolOf_eq,Nat.cast_sub (StockVault.distributionShare_le n)]
  exact ⟨rfl,rfl⟩

/-- Every eligible wallet gets the floor of its share, nobody else gets anything. -/
structure Fair (weights : WeightMap) (wallets : List Text) (totalWeight : ℤ)
    (a : AssetAllocation) : Prop where
  dust_nonneg : 0 ≤ a.distributionDust
  dust_lt : 0 < totalWeight →
    a.distributionDust < (wallets.filter (fun w => 0 < effectiveWeight weights w)).length
  listed : ∀ p ∈ a.walletAllocations, p.amount = amountIn a.walletAllocations p.wallet
  floor : 0 < totalWeight → ∀ w ∈ wallets, 0 < effectiveWeight weights w →
    amountIn a.walletAllocations w = a.participantPool*effectiveWeight weights w/totalWeight
  outside : ∀ w, (w ∉ wallets ∨ effectiveWeight weights w ≤ 0 ∨ totalWeight ≤ 0) →
    amountIn a.walletAllocations w = 0
  mono : ∀ w ∈ wallets, ∀ w' ∈ wallets, effectiveWeight weights w ≤ effectiveWeight weights w' →
    amountIn a.walletAllocations w ≤ amountIn a.walletAllocations w'

theorem amountIn_received {pool : ℤ} (hpool : 0 ≤ pool) (wallet : Text) :
    amountIn (received pool weights totalWeight wallets) wallet =
      if wallet ∈ wallets ∧ 0 < effectiveWeight weights wallet ∧ 0 < totalWeight then
        share pool totalWeight (effectiveWeight weights wallet)
      else 0 := by
  by_cases htotal : 0 < totalWeight
  · rw [received,if_pos htotal,amountIn_allotments]
    by_cases hweight : 0 < effectiveWeight weights wallet
    · have hshare := share_nonneg hpool htotal hweight.le
      simp only [hweight,htotal,true_and,and_true]
      split_ifs with hboth hmem hmem
      · rfl
      · exact absurd hboth.1 hmem
      · by_contra hne
        exact hboth ⟨hmem,by omega⟩
      · rfl
    · simp [hweight]
  · simp [received,htotal,amountIn]

theorem pool_nonneg (h : allocateAsset cycle asset wallets weights totalWeight = .ok a) :
    0 ≤ a.participantPool := by
  obtain ⟨hle,rfl⟩ := allocateAsset_eq_ok.1 h
  refine le_trans (List.sum_nonneg ?_) hle
  intro x hx
  obtain ⟨p,hp,rfl⟩ := List.mem_map.1 hx
  rw [received] at hp
  split at hp
  · exact (mem_allotments.1 hp).2.2.1.le
  · exact absurd hp List.not_mem_nil

theorem fair (htotal : totalWeight ≤ total WalletWeight.effectiveWeight weights wallets)
    (h : allocateAsset cycle asset wallets weights totalWeight = .ok a) :
    Fair weights wallets totalWeight a := by
  have hpool := pool_nonneg h
  obtain ⟨hle,rfl⟩ := allocateAsset_eq_ok.1 h
  simp only at hpool hle
  have hamount := @amountIn_received weights totalWeight wallets _ hpool
  refine ⟨sub_nonneg.2 hle,?_,?_,?_,?_,?_⟩
  · intro hpos
    have hlt := pool_lt_sum_shares hpool hpos
      (htotal.trans (total_le_sum_positive weights wallets))
    rw [← sum_allotments hpool hpos,positiveWeights,List.length_map] at hlt
    simp only [received,if_pos hpos]
    exact Int.sub_left_lt_of_lt_add hlt
  · intro p hp
    simp only at hp ⊢
    rw [hamount]
    rw [received] at hp
    split at hp
    · rename_i hpos
      obtain ⟨hmem,hweight,-,heq⟩ := mem_allotments.1 hp
      rw [if_pos ⟨hmem,hweight,hpos⟩,heq]
    · exact absurd hp List.not_mem_nil
  · intro hpos w hw hweight
    rw [hamount,if_pos ⟨hw,hweight,hpos⟩]
    rfl
  · intro w hw
    rw [hamount,if_neg]
    rintro ⟨hmem,hweight,hpos⟩
    obtain hnot | hzero | hnone := hw
    · exact hnot hmem
    · omega
    · omega
  · intro w hw w' hw' hweights
    rw [hamount,hamount]
    split_ifs with hgets hgets' hgets'
    · exact share_mono hpool hgets.2.2 hweights
    · exact absurd ⟨hw',hgets.2.1.trans_le hweights,hgets.2.2⟩ hgets'
    · exact share_nonneg hpool hgets'.2.2 hgets'.2.1.le
    · exact le_rfl

/-- With no negative weight and no negative amount the allocation is never refused. -/
theorem allocateAsset_succeeds (hacquired : 0 ≤ asset.acquiredRawAmount)
    (hweights : ∀ w ∈ wallets, 0 ≤ effectiveWeight weights w)
    (htotal : totalWeight = total WalletWeight.effectiveWeight weights wallets) :
    ∃ a, allocateAsset cycle asset wallets weights totalWeight = .ok a := by
  have hpool : 0 ≤ poolOf asset.acquiredRawAmount :=
    Int.tdiv_nonneg (mul_nonneg hacquired (by decide)) (by decide)
  refine ⟨_,allocateAsset_eq_ok.2 ⟨?_,rfl⟩⟩
  rw [received]
  split
  · rename_i hpos
    rw [sum_allotments hpool hpos]
    exact sum_shares_le hpool hpos ((sum_positive_eq_total hweights).trans htotal.symm).le
  · exact hpool

end Conservation

section Pipeline

open SnapshotPipeline LeafEncoding Merkle

variable {cycle : CycleConfig} {asset : AcquiredAsset} {weights : WeightMap} {wallets : List Text}
  {a : AssetAllocation} {T : Type} {S : StandardMerkleTree T} {keccak256 : Hash}
  {keccakOfCanonical : Artifact → Bytes32} {reader : ChainReader} {req : SnapshotRequest}
  {result : SnapshotRunResult}

/-- The participants of a snapshot are the wallets of positive weight, with their weights; no
weight is negative. -/
def SameWeights (weights : WeightMap) (wallets : List Text)
    (participants : List ParticipantWeight) : Prop :=
  (∀ w ∈ wallets, 0 ≤ effectiveWeight weights w) ∧
  ((wallets.filter (fun w => 0 < effectiveWeight weights w)).map
      (fun w => (w,toString10 (effectiveWeight weights w)))).Perm
    (participants.map (fun p => (p.address,p.effectiveWeight)))

/-- Two lists of keyed values in the order of their keys are one list when they are
permutations and a value depends on its key. -/
theorem eq_of_perm_of_keys {xs ys : List Text} {f g : Text → Text}
    (hperm : (xs.map (fun x => (x,f x))).Perm (ys.map (fun y => (y,g y))))
    (hxs : xs.Pairwise (fun a b => List.le a b)) (hys : ys.Pairwise (fun a b => List.le a b)) :
    xs = ys ∧ ∀ x ∈ xs, f x = g x := by
  have hkeys : xs.Perm ys := by
    have := hperm.map Prod.fst
    simpa only [List.map_map,Function.comp_def,List.map_id'] using this
  refine ⟨List.Perm.eq_of_pairwise (fun _ _ _ _ => List.le_antisymm) hxs hys hkeys,?_⟩
  intro x hx
  have hmem := hperm.mem_iff.1 (List.mem_map.2 ⟨x,hx,rfl⟩)
  obtain ⟨y,-,heq⟩ := List.mem_map.1 hmem
  obtain ⟨rfl,hvalue⟩ := Prod.mk.inj heq
  exact hvalue.symm

theorem sum_filter_ne_zero (f : Text → ℤ) (xs : List Text) :
    ((xs.filter (fun x => f x ≠ 0)).map f).sum = (xs.map f).sum := by
  induction xs with
  | nil => rfl
  | cons x rest ih =>
    by_cases hzero : f x = 0
    · simpa [hzero] using ih
    · simpa [hzero] using ih

/-- The candidates are listed in ascending order. -/
theorem candidates_pairwise {records : List LockCreatedRecord} {snapshotBlock : ℤ}
    {e : EnumerationResult} (h : enumerateCandidates records snapshotBlock = .ok e) :
    e.candidates.Pairwise (fun a b => List.le a b) := by
  have hcanonical := (enumerateCandidates_ok h).2
  simp only [enumerateCandidates,bind_eq_ok,pure_eq_ok] at h
  obtain ⟨⟨unique,excluded⟩,-,rfl⟩ := h
  refine (sortCandidates_pairwise unique).imp_of_mem ?_
  intro t t' ht ht' hle
  obtain ⟨a,-,rfl⟩ := (hcanonical t).1 ht
  obtain ⟨b,-,rfl⟩ := (hcanonical t').1 ht'
  rwa [toLowerCase_eq_addressText (addressOf_addressText a),
    toLowerCase_eq_addressText (addressOf_addressText b)] at hle

/-- The wallet and the weight that an artifact shows, paid out of a pool. -/
def payouts (pool totalWeight : ℤ) (rows : List (Text × Text)) : List (Text × Text) :=
  ((rows.map (fun q => (q.1,(pool*bigInt q.2).tdiv totalWeight))).filter
    (fun q => q.2 ≠ 0)).map (fun q => (q.1,toString10 q.2))

theorem payouts_entitled (pool totalWeight : ℤ) (participants : List ParticipantWeight) :
    ((participants.map (entitledOf pool totalWeight)).filter (fun e => e.amount ≠ 0)).map
        (fun e => (e.address,toString10 e.amount)) =
      payouts pool totalWeight (participants.map (fun p => (p.address,p.effectiveWeight))) := by
  simp only [payouts,List.map_map,List.filter_map]
  rfl

theorem payouts_received {pool totalWeight : ℤ} (hpool : 0 ≤ pool)
    (hnonneg : ∀ w ∈ wallets, 0 ≤ effectiveWeight weights w) (htotal : 0 ≤ totalWeight) :
    (received pool weights totalWeight wallets).map (fun p => (p.wallet,toString10 p.amount)) =
      payouts pool totalWeight ((wallets.filter (fun w => 0 < effectiveWeight weights w)).map
        (fun w => (w,toString10 (effectiveWeight weights w)))) := by
  by_cases hpos : 0 < totalWeight
  · simp only [received,if_pos hpos,allotments,payouts,List.map_map,List.filter_map]
    have hshare : ∀ w ∈ wallets.filter (weighs weights),
        (pool*bigInt (toString10 (effectiveWeight weights w))).tdiv totalWeight =
          share pool totalWeight (effectiveWeight weights w) := by
      intro w hw
      have hw := hnonneg w (List.mem_of_mem_filter hw)
      rw [bigInt_toString10 hw,Int.tdiv_eq_ediv_of_nonneg (mul_nonneg hpool hw)]
      rfl
    have hfilter : (wallets.filter (weighs weights)).filter
          ((fun p : WalletAllocation => decide (0 < p.amount)) ∘ allotment pool weights totalWeight) =
        (wallets.filter (weighs weights)).filter ((fun q : Text × ℤ => decide (q.2 ≠ 0)) ∘
          (fun q : Text × Text => (q.1,(pool*bigInt q.2).tdiv totalWeight)) ∘
            fun w => (w,toString10 (effectiveWeight weights w))) := by
      apply List.filter_congr
      intro w hw
      have hw' := share_nonneg hpool hpos (hnonneg w (List.mem_of_mem_filter hw))
      simp only [Function.comp_apply,hshare w hw]
      rw [Bool.eq_iff_iff,decide_eq_true_eq,decide_eq_true_eq]
      exact ⟨ne_of_gt,fun hne => lt_of_le_of_ne hw' (Ne.symm hne)⟩
    rw [hfilter]
    apply List.map_congr_left
    intro w hw
    simp only [Function.comp_apply,allotment,hshare w (List.mem_of_mem_filter hw)]
  · have hzero : totalWeight = 0 := by omega
    rw [received,if_neg hpos,hzero,payouts,List.map_nil,eq_comm,List.map_eq_nil_iff,
      List.filter_eq_nil_iff]
    intro q hq
    obtain ⟨row,-,rfl⟩ := List.mem_map.1 hq
    simp

/-- What a run and an allocation have in common when they weigh the same. -/
theorem rows_eq {manager token : Address} {header : Header} {records : List LockCreatedRecord}
    {enumeration : EnumerationResult} {s : Settlement}
    (hran : Ran S keccak256 reader req result manager token header records enumeration s)
    (hsorted : wallets.Pairwise (fun a b => List.le a b))
    (hsame : SameWeights weights wallets result.snapshot.participants) :
    s.weighing.participants.map (fun p => (p.address,p.effectiveWeight)) =
        (wallets.filter (fun w => 0 < effectiveWeight weights w)).map
          (fun w => (w,toString10 (effectiveWeight weights w))) ∧
      s.weighing.totalWeight = total WalletWeight.effectiveWeight weights wallets := by
  obtain ⟨hnonneg,hperm⟩ := hsame
  rw [hran.assembled.participants] at hperm
  rw [hran.settled.totalWeight,hran.settled.participants,← sum_filter_ne_zero,
    ← sum_positive_eq_total hnonneg,positiveWeights,List.map_map]
  rw [hran.settled.participants,List.map_map] at hperm
  have hread := hran.settled.readable
  have hlisted := (candidates_pairwise hran.enumerated).filter
    (fun t => weightOf reader header.timestamp req.snapshotBlock t ≠ 0)
  obtain ⟨hwallets,htexts⟩ := eq_of_perm_of_keys
    (g := fun t => toString10 (weightOf reader header.timestamp req.snapshotBlock t)) hperm
    (hsorted.filter _) hlisted
  rw [← hwallets]
  constructor
  · apply List.map_congr_left
    intro t ht
    exact Prod.ext rfl (htexts t ht).symm
  · apply congrArg List.sum
    apply List.map_congr_left
    intro t ht
    have hcandidate : t ∈ enumeration.candidates := by
      rw [hwallets] at ht
      exact List.mem_of_mem_filter ht
    have htext := congrArg bigInt (htexts t ht)
    rwa [bigInt_toString10 (hnonneg t (List.mem_of_mem_filter ht)),
      bigInt_toString10 (hread t hcandidate).weight_nonneg,eq_comm] at htext

/-- A pipeline run over the same weights and the same pool lists the same entitlements. -/
theorem pipeline_agrees
    (hrun : runSnapshotPipeline S keccak256 keccakOfCanonical reader req = .ok result)
    (hsorted : wallets.Pairwise (fun a b => List.le a b))
    (hsame : SameWeights weights wallets result.snapshot.participants)
    (halloc : allocateAsset cycle asset wallets weights
      (total WalletWeight.effectiveWeight weights wallets) = .ok a)
    (hpool : req.distributionAmount = a.participantPool) :
    result.snapshot.entitlements.map (fun e => (e.address,e.entitlement)) =
      a.walletAllocations.map (fun p => (p.wallet,toString10 p.amount)) := by
  obtain ⟨manager,token,header,records,enumeration,s,hran⟩ := runSnapshotPipeline_ok hrun
  obtain ⟨hrows,htotal⟩ := rows_eq hran hsorted hsame
  have hpoolNonneg := pool_nonneg halloc
  obtain ⟨-,rfl⟩ := allocateAsset_eq_ok.1 halloc
  have hproved : s.entitled.map (fun e => (e.address,toString10 e.amount)) =
      s.withProofs.map (fun p => (p.address,p.entitlement)) :=
    Pairing.map_eq hran.settled.proved fun _ _ hp => Prod.ext hp.address.symm hp.entitlement.symm
  calc result.snapshot.entitlements.map (fun e => (e.address,e.entitlement))
      = s.withProofs.map (fun p => (p.address,p.entitlement)) := by
        rw [hran.assembled.entitlements,List.map_map]
        rfl
    _ = payouts req.distributionAmount s.weighing.totalWeight
          (s.weighing.participants.map (fun p => (p.address,p.effectiveWeight))) := by
        rw [← hproved,hran.settled.entitled,payouts_entitled]
    _ = _ := by
        have hnonneg : 0 ≤ total WalletWeight.effectiveWeight weights wallets :=
          htotal ▸ hran.assembled.totalWeight_nonneg
        rw [hrows,htotal,hpool]
        exact (payouts_received hpoolNonneg hsame.1 hnonneg).symm

end Pipeline

section Fairness

/-- `allocateAsset` for the wallets that `resolveEligibility` finds and their total. -/
def allocateEligible (cycle : CycleConfig) (excludedAddresses : List ExcludedAddress)
    (eligibility : List EligibilityRecord) (weights : List WalletWeight) (asset : AcquiredAsset) :
    Except ProofOfDistributionError AssetAllocation :=
  let resolved := resolveEligibility cycle excludedAddresses eligibility (weightMap weights)
  allocateAsset cycle asset resolved.eligibleWallets (weightMap weights)
    resolved.totalEffectiveWeight

variable {cycle : CycleConfig} {excludedAddresses excludedAddresses' : List ExcludedAddress}
  {eligibility eligibility' : List EligibilityRecord} {weights weights' : List WalletWeight}
  {asset : AcquiredAsset} {a : AssetAllocation}

/-- The order of the three inputs does not matter; the weights of a map have distinct wallets. -/
theorem allocateEligible_perm (hnodup : (weights.map WalletWeight.wallet).Nodup)
    (hexcluded : excludedAddresses.Perm excludedAddresses')
    (heligibility : eligibility.Perm eligibility') (hweights : weights.Perm weights') :
    allocateEligible cycle excludedAddresses' eligibility' weights' asset =
      allocateEligible cycle excludedAddresses eligibility weights asset := by
  unfold allocateEligible
  rw [weightMap_perm hnodup hweights,resolveEligibility_perm hexcluded heligibility]

theorem effectiveWeight_nonneg (h : ∀ w ∈ weights, 0 ≤ w.effectiveWeight) (wallet : Text) :
    0 ≤ effectiveWeight (weightMap weights) wallet := by
  have hall : ∀ m : WeightMap, (∀ x, m wallet = some x → 0 ≤ x.effectiveWeight) → ∀ x,
      weights.foldl (fun m w => set m w.wallet (some w)) m wallet = some x →
        0 ≤ x.effectiveWeight := by
    induction weights with
    | nil => exact fun m hm => hm
    | cons w rest ih =>
      intro m hm
      apply ih (fun y hy => h y (List.mem_cons_of_mem _ hy))
      intro x hx
      have hx : set m w.wallet (some w) wallet = some x := hx
      by_cases hwallet : wallet = w.wallet
      · rw [hwallet,set_same] at hx
        exact Option.some.inj hx ▸ h w List.mem_cons_self
      · rw [set_other _ hwallet] at hx
        exact hm x hx
  unfold effectiveWeight readWeight
  split
  · rename_i x hx
    exact hall _ (fun _ hnone => absurd hnone (by simp)) x hx
  · exact le_rfl

/-- For every list of weights, eligibility records and exclusions: an allocation is made
unless a weight or the amount is negative, it conserves the acquired amount, it is fair, it does
not depend on the order of its inputs, and a pipeline run over the same weights and pool lists
the same entitlements. -/
theorem allocation_conserved_and_fair (cycle : CycleConfig)
    (excludedAddresses : List ExcludedAddress) (eligibility : List EligibilityRecord)
    (weights : List WalletWeight) (asset : AcquiredAsset) :
    (0 ≤ asset.acquiredRawAmount → (∀ w ∈ weights, 0 ≤ w.effectiveWeight) →
      ∃ a, allocateEligible cycle excludedAddresses eligibility weights asset = .ok a) ∧
    ∀ a, allocateEligible cycle excludedAddresses eligibility weights asset = .ok a →
      let resolved := resolveEligibility cycle excludedAddresses eligibility (weightMap weights)
      Conserved asset a ∧
      Fair (weightMap weights) resolved.eligibleWallets resolved.totalEffectiveWeight a ∧
      (∀ excludedAddresses' eligibility' weights', (weights.map WalletWeight.wallet).Nodup →
        excludedAddresses.Perm excludedAddresses' → eligibility.Perm eligibility' →
        weights.Perm weights' →
        allocateEligible cycle excludedAddresses' eligibility' weights' asset = .ok a) ∧
      (∀ {T : Type} (S : Merkle.StandardMerkleTree T) (keccak256 : Hash)
        (keccakOfCanonical : SnapshotPipeline.Artifact → Bytes32)
        (reader : SnapshotPipeline.ChainReader) (req : SnapshotPipeline.SnapshotRequest)
        (result : SnapshotPipeline.SnapshotRunResult),
        SnapshotPipeline.runSnapshotPipeline S keccak256 keccakOfCanonical reader req =
          .ok result →
        SameWeights (weightMap weights) resolved.eligibleWallets result.snapshot.participants →
        req.distributionAmount = a.participantPool →
        result.snapshot.entitlements.map (fun e => (e.address,e.entitlement)) =
          a.walletAllocations.map (fun p => (p.wallet,toString10 p.amount))) := by
  refine ⟨fun hacquired hweights => ?_,fun a ha => ⟨conserved ha,fair le_rfl ha,?_,?_⟩⟩
  · exact allocateAsset_succeeds hacquired (fun w _ => effectiveWeight_nonneg hweights w) rfl
  · intro excludedAddresses' eligibility' weights' hnodup hexcluded heligibility hperm
    rw [allocateEligible_perm hnodup hexcluded heligibility hperm]
    exact ha
  · intro T S keccak256 keccakOfCanonical reader req result hrun hsame hpool
    exact pipeline_agrees hrun (sortWallets_pairwise _) hsame ha hpool

def sampleWeights : List WalletWeight :=
  [⟨addressText 2,1,1,1,fun _ => 0,1⟩,⟨addressText 1,2,2,2,fun _ => 0,2⟩]

def sampleEligibility : List EligibilityRecord :=
  [⟨addressText 2,true,[],0,none,false⟩,⟨addressText 1,true,[],0,none,false⟩]

def sampleAsset : AcquiredAsset := ⟨"T".toList,"T".toList,addressText 50,18,100⟩

def sampleParticipants : List SnapshotPipeline.ParticipantWeight :=
  [⟨addressText 1,"1".toList,"2".toList⟩,⟨addressText 2,"1".toList,"1".toList⟩]

/-- Two thirds and one third of eighty, in the pipeline as in the allocator. -/
theorem sample_allocation_agrees : ∃ a result,
    allocateEligible Merkle.sampleConfig [] sampleEligibility sampleWeights sampleAsset = .ok a ∧
    SnapshotPipeline.sampleRun = .ok result ∧
    a.walletAllocations = [⟨addressText 1,53⟩,⟨addressText 2,26⟩] ∧
    result.snapshot.entitlements.map (fun e => (e.address,e.entitlement)) =
      a.walletAllocations.map (fun p => (p.wallet,toString10 p.amount)) := by
  obtain ⟨hsucceeds,hall⟩ := allocation_conserved_and_fair Merkle.sampleConfig []
    sampleEligibility sampleWeights sampleAsset
  obtain ⟨a,ha⟩ := hsucceeds (by decide) (by decide)
  have hshown : (allocateEligible Merkle.sampleConfig [] sampleEligibility sampleWeights
      sampleAsset).toOption.map (fun a => (a.participantPool,a.walletAllocations)) =
      some (80,[⟨addressText 1,53⟩,⟨addressText 2,26⟩]) := by decide +kernel
  have hlisted : SnapshotPipeline.sampleRun.toOption.map (fun r => r.snapshot.participants) =
      some sampleParticipants := by decide +kernel
  have hsame : SameWeights (weightMap sampleWeights) (resolveEligibility Merkle.sampleConfig []
      sampleEligibility (weightMap sampleWeights)).eligibleWallets sampleParticipants := by
    unfold SameWeights
    decide +kernel
  obtain ⟨result,hrun,hparticipants⟩ := Option.map_eq_some_iff.1 hlisted
  have hrun := toOption_eq_some.1 hrun
  rw [ha] at hshown
  obtain ⟨hpool,hamounts⟩ := Prod.mk.inj (Option.some.inj hshown)
  refine ⟨a,result,ha,hrun,hamounts,?_⟩
  apply (hall a ha).2.2.2 _ _ _ _ _ result hrun
  · rw [hparticipants]
    exact hsame
  · exact hpool.symm

end Fairness

end Allocation
end BpsProtocol
