import BpsProtocol.CoordinatorCustody
import BpsProtocol.CoordinatorLog
import BpsProtocol.StockVaultAccounting

/-! Which recorded acquisitions can be funded.
In the wired system the vault holds what it allocated and did not release, and every record
is one of an approved token with the vault's own share.  So nothing but an empty share stops a
funding. -/
namespace BpsProtocol

open Checked Mapping Erc20

section Ledgers

variable {l l' : Ledger} {asset owner spender source target a x : Address} {value : ℕ}

/-- A payment between others leaves a closed account what it has. -/
theorem Ledger.Paid.kept (h : l.Paid l' asset source target value) (hne : a ≠ source)
    (hclosed : (l x).Closed a) : Call.Kept a (l x) (l' x) := by
  by_cases hx : x = asset
  · subst hx
    refine ⟨fun s => Nat.le_zero.mp ((h.allowance_le a s).trans (hclosed s).le),?_,
      h.moved.outflows_other (Or.inl hne)⟩
    have hb := h.moved.balances a
    rw [if_neg hne] at hb
    omega
  · rw [h.others x hx]
    exact .refl hclosed

/-- So does an approval of another account. -/
theorem Ledger.approve_kept (h : l.approve asset owner spender value = .ok l') (hne : a ≠ owner)
    (hclosed : (l x).Closed a) : Call.Kept a (l x) (l' x) := by
  obtain ⟨hsame,hallow⟩ := Ledger.approve_frame h
  refine ⟨fun s => ?_,(congrFun (hsame x).1 a).ge,?_⟩
  · rw [hallow,if_neg (fun e => hne e.2.1)]
    exact hclosed s
  · rw [Token.outflows,(hsame x).2.2,Token.outflows]

/-- An approval in another token is not seen. -/
theorem Ledger.approve_other (h : l.approve asset owner spender value = .ok l') (hne : x ≠ asset) :
    l' x = l x := by
  rw [Ledger.approve_ok h,set_other _ hne]

theorem Ledger.call_kept_at {c : Erc20.Call} (h0 : a ≠ 0) (hc : c.sender ≠ a)
    (hclosed : (l x).Closed a) (h : l.call asset c = .ok l') : Call.Kept a (l x) (l' x) := by
  simp only [Ledger.call,bind_eq_ok,pure_eq_ok] at h
  obtain ⟨t,ht,rfl⟩ := h
  by_cases hx : x = asset
  · subst hx
    rw [set_same]
    exact Call.exec_kept h0 hc hclosed ht
  · rw [set_other t hx]
    exact .refl hclosed

end Ledgers

namespace Coordinator

variable {s : System} {w w' : World} {u u' : ClaimManager.World}
  {sender stockToken target x : Address} {wethAmountIn minStockOut deadline amount id : ℕ}

section Custody

theorem System.vault_ne_zero (s : System) : s.vault.here ≠ 0 := by
  have h := s.coordinator.nonzero
  rw [s.vault_here] at h
  intro he
  simp [he] at h

theorem System.vault_ne_coordinator (s : System) : s.vault.here ≠ s.coordinator.here := by
  have h := s.vault.coordinator_distinct
  rw [s.releases_to] at h
  intro he
  simp [he] at h

theorem System.vault_ne_reserve (s : System) : s.vault.here ≠ s.vault.reserveRecipient := by
  have h := s.vault.reserve_distinct
  intro he
  simp [← he] at h

/-- A call from outside cannot touch a token in which the vault approved nobody. -/
theorem foreign_kept {tx : ClaimManager.Tx} (h : foreign s u tx = .ok u')
    (hclosed : (u.tokens x).Closed s.vault.here) :
    Call.Kept s.vault.here (u.tokens x) (u'.tokens x) := by
  unfold foreign at h
  split at h
  · cases h
  rename_i sender hsender
  simp only [bind_eq_ok,revertIf_eq_ok,exists_const,List.mem_cons,List.not_mem_nil,or_false,
    not_or] at h
  obtain ⟨⟨-,-,hvault,-⟩,h⟩ := h
  rcases ClaimManager.exec_cases h with ⟨_,rfl,-⟩ | ⟨_,p,rfl,hp⟩ | ⟨_,_,_,_,_,-,hc⟩ |
    ⟨_,_,_,-,hb⟩ | ⟨_,_,_,-,hr⟩ | ⟨_,_,_,-,-,rfl⟩ | ⟨_,call,l,rfl,-,hl,rfl⟩
  · cases hsender
  · obtain rfl := Option.some.inj hsender
    refine ClaimManager.fundAssets_preserves
      (I := fun v => Call.Kept s.vault.here (u.tokens x) (v.tokens x)) ?_
      (show Call.Kept s.vault.here (u.tokens x) ((u.opened p).tokens x) from .refl hclosed)
      hp.funded
    intro v v' asset amount hv hf
    exact hv.trans ((Ledger.transferFrom_ok hf.paid).2.2.2.kept (Ne.symm hvault) hv.closed)
  · exact (Ledger.transfer_ok hc.paid).2.2.kept s.vault_ne_manager hclosed
  · refine ClaimManager.claimAll_preserves
      (I := fun v => Call.Kept s.vault.here (u.tokens x) (v.tokens x)) ?_ (.refl hclosed) hb
    intro v v' asset amount proof hv hc
    exact hv.trans ((Ledger.transfer_ok hc.paid).2.2.kept s.vault_ne_manager hv.closed)
  · rcases hr.paid with ⟨-,hpaid⟩ | ⟨-,hsame⟩
    · exact (Ledger.transfer_ok hpaid).2.2.kept s.vault_ne_manager hclosed
    · rw [hsame]
      exact .refl hclosed
  · exact .refl hclosed
  · obtain rfl := Option.some.inj hsender
    exact Ledger.call_kept_at s.vault_ne_zero hvault hclosed hl

theorem acquireStock_kept {b : Behaviour} {timestamp reported : ℕ} {l l' : Ledger}
    {m m' : ClaimManager.Storage} (hclosed : (l x).Closed s.vault.here)
    (h : b.acquireStock s timestamp stockToken wethAmountIn minStockOut deadline (l,m) =
      some (reported,(l',m'))) : Call.Kept s.vault.here (l x) (l' x) := by
  simp only [Behaviour.acquireStock,Option.map_eq_some_iff,Prod.mk.injEq] at h
  obtain ⟨_,-,-,rfl,-⟩ := h
  refine Machine.run_preserves
    (I := fun v : ClaimManager.World => Call.Kept s.vault.here (l x) (v.tokens x)) ?_
    (.refl hclosed) b.calls
  intro v tx v' hv hx
  exact hv.trans (foreign_kept hx hv.closed)

/-- The books that the funding path relies on. -/
structure Fundable (s : System) (w : World) : Prop where
  closed : ∀ x, x ≠ s.vault.weth → (w.tokens x).Closed s.vault.here
  covered : ∀ x, x ≠ s.vault.weth → w.stock.distributionAllocated x ≤
    (w.tokens x).balanceOf s.vault.here+w.stock.distributionReleased x
  bounded : ∀ x, w.stock.distributionAllocated x < wordBound
  approved : ∀ id, (w.coordinator.acquisitions id).status ≠ .none →
    s.vault.isApprovedStockToken (w.coordinator.acquisitions id).stockToken = true
  share : ∀ id, (w.coordinator.acquisitions id).status ≠ .none →
    (w.coordinator.acquisitions id).distributionAmount =
      StockVault.distributionShare (w.coordinator.acquisitions id).acquiredStock

theorem Initial.fundable (h : Initial s w) : Fundable s w := by
  refine ⟨fun x _ => h.closed _ (by simp) x,?_,?_,?_,?_⟩ <;>
    simp [h.stock,h.coordinator,StockVault.Storage.deployed,Storage.deployed,
      AcquisitionRecord.unset,wordBound]

/-- Where the vault's books and the records stay, others only add to the vault's tokens. -/
theorem Fundable.of_kept (hs : Fundable s w)
    (hk : ∀ x, x ≠ s.vault.weth → Call.Kept s.vault.here (w.tokens x) (w'.tokens x))
    (hstock : w'.stock = w.stock) (hcoordinator : w'.coordinator = w.coordinator) :
    Fundable s w' := by
  refine ⟨fun x hx => (hk x hx).closed,fun x hx => ?_,?_,?_,?_⟩
  · rw [hstock]
    exact (hs.covered x hx).trans (Nat.add_le_add_right (hk x hx).balance _)
  · rw [hstock]
    exact hs.bounded
  · rw [hcoordinator]
    exact hs.approved
  · rw [hcoordinator]
    exact hs.share

/-- What an acquisition of the vault leaves in its tokens: its own share on top. -/
theorem executeAcquisition_kept {b : Behaviour} {acquired : ℕ}
    {v : StockVault.World ClaimManager.Storage} (hs : Fundable s w)
    (h : StockVault.executeAcquisition s.vault (b.acquireStock s w.timestamp) w.atVault sender
      stockToken wethAmountIn minStockOut deadline = .ok (acquired,v))
    (hx : x ≠ s.vault.weth) :
    (v.tokens x).Closed s.vault.here ∧ (w.tokens x).balanceOf s.vault.here+
      (if x = stockToken then StockVault.distributionShare acquired else 0) ≤
        (v.tokens x).balanceOf s.vault.here := by
  obtain ⟨tokens,hconv,hpaid⟩ := (StockVault.executeAcquisition_ok h).converted
  obtain ⟨approved,called,happrove,hcall,hclear⟩ := hconv.called
  have hbefore : approved x = w.tokens x := Ledger.approve_other happrove hx
  have hcalled : Call.Kept s.vault.here (approved x) (called x) :=
    acquireStock_kept (by rw [hbefore]; exact hs.closed x hx) hcall
  have hafter : tokens x = called x := Ledger.approve_other hclear hx
  rw [hbefore,← hafter] at hcalled
  have hstock := hconv.stock
  have hle := StockVault.distributionShare_le acquired
  rcases Ledger.transferPositive_ok hpaid with ⟨-,hpaid⟩ | ⟨hzero,hsame⟩
  · obtain ⟨-,hallow,hp⟩ := Ledger.transfer_ok hpaid
    have hbal := hp.balance x s.vault.here
    simp only [s.vault_ne_reserve,and_false,if_false,and_true,Nat.add_zero] at hbal
    by_cases hk : x = stockToken
    · subst hk
      rw [if_pos rfl] at hbal ⊢
      exact ⟨fun a => (hallow _ a).trans (hcalled.closed a),by
        simp only [World.atVault] at hstock
        omega⟩
    · have hbalance := hcalled.balance
      rw [if_neg hk] at hbal ⊢
      rw [hp.others x hk]
      exact ⟨hcalled.closed,by omega⟩
  · rw [hsame]
    refine ⟨hcalled.closed,?_⟩
    by_cases hk : x = stockToken
    · subst hk
      simp only [World.atVault] at hstock
      rw [if_pos rfl]
      omega
    · rw [if_neg hk]
      exact hcalled.balance

/-- The vault adds to what it allocated without overflow. -/
theorem executeAcquisition_bounded {b : Behaviour} {acquired : ℕ}
    {v : StockVault.World ClaimManager.Storage}
    (h : StockVault.executeAcquisition s.vault (b.acquireStock s w.timestamp) w.atVault sender
      stockToken wethAmountIn minStockOut deadline = .ok (acquired,v)) :
    v.stock.distributionAllocated stockToken < wordBound := by
  rw [(StockVault.executeAcquisition_ok h).distributionAllocated,set_same]
  simp only [StockVault.executeAcquisition,bind_eq_ok,revertIf_eq_ok,sub_eq_ok,add_eq_ok,
    mulDiv_eq_ok,exists_const,pure_eq_ok] at h
  obtain ⟨-,-,-,-,-,⟨a,l,o⟩,-,_,⟨-,rfl⟩,_,-,_,-,_,-,_,⟨hlt,rfl⟩,_,-,u,-,he⟩ := h
  obtain ⟨rfl,-⟩ := Prod.mk.inj he
  exact hlt

/-- The record is derived from the vault's own share. -/
theorem deriveRecord_share {b a : Counters} {record : AcquisitionRecord}
    (h : deriveRecord stockToken wethAmountIn b a = .ok record) :
    record.distributionAmount = StockVault.distributionShare record.acquiredStock := by
  simp only [deriveRecord,bind_eq_ok,revertIf_eq_ok,sub_eq_ok,mulDiv_eq_ok,exists_const,
    pure_eq_ok] at h
  obtain ⟨_,⟨-,rfl⟩,_,⟨-,rfl⟩,_,⟨-,rfl⟩,_,⟨-,rfl⟩,-,-,_,⟨-,rfl⟩,hdist,_,-,-,_,-,-,rfl⟩ := h
  exact not_not.mp hdist

theorem executeAndRecordAcquisition_fundable {b : Behaviour} (hs : Fundable s w)
    (h : executeAndRecordAcquisition s (b.acquireStock s w.timestamp) w sender stockToken
      wethAmountIn minStockOut deadline = .ok (id,w')) : Fundable s w' := by
  simp only [executeAndRecordAcquisition,bind_eq_ok,revertIf_eq_ok,mapError_eq_ok,add_eq_ok,
    exists_const,pure_eq_ok] at h
  obtain ⟨-,happroved,-,-,-,⟨acquired,u⟩,hu,record,hrecord,_,⟨-,rfl⟩,he⟩ := h
  obtain ⟨-,rfl⟩ := Prod.mk.inj he
  have ha := StockVault.executeAcquisition_ok hu
  have hkept := fun x hx => executeAcquisition_kept (x := x) hs hu hx
  have hbounded := executeAcquisition_bounded hu
  have htoken := (deriveRecord_ok hrecord).2.1
  refine ⟨fun x hx => (hkept x hx).1,fun x hx => ?_,fun x => ?_,fun i hi => ?_,fun i hi => ?_⟩
  · have hcovered := hs.covered x hx
    have hbalance := (hkept x hx).2
    simp only [World.afterVault,ha.distributionAllocated,ha.distributionReleased,set_apply]
    simp only [World.atVault] at hbalance ⊢
    split
    · subst_vars
      rw [if_pos rfl] at hbalance
      omega
    · omega
  · by_cases hx : x = stockToken
    · rw [hx]
      exact hbounded
    · have hbound := hs.bounded x
      simpa [World.afterVault,ha.distributionAllocated,World.atVault,set_other _ hx] using hbound
  · by_cases hid : i = w.coordinator.acquisitionCount+1
    · subst hid
      simpa [htoken] using happroved
    · simp only [set_other _ hid] at hi ⊢
      exact hs.approved i hi
  · by_cases hid : i = w.coordinator.acquisitionCount+1
    · subst hid
      simpa using deriveRecord_share hrecord
    · simp only [set_other _ hid] at hi ⊢
      exact hs.share i hi

/-- The publication is paid by the coordinator, not by the vault. -/
theorem publishExact_kept {p : PublishInputs} {coordBaseline : ℕ}
    (h : publishExact s w p stockToken amount coordBaseline = .ok w')
    (hclosed : (w.tokens x).Closed s.vault.here) :
    Call.Kept s.vault.here (w.tokens x) (w'.tokens x) := by
  simp only [publishExact,bind_eq_ok,revertIf_eq_ok,mapError_eq_ok,sub_eq_ok,exists_const,
    pure_eq_ok] at h
  obtain ⟨l,happrove,u,hu,l',hclear,-,_,-,-,-,rfl⟩ := h
  have happroved := Ledger.approve_kept happrove s.vault_ne_coordinator hclosed
  have hpublished : Call.Kept s.vault.here (l x) (u.tokens x) := by
    refine ClaimManager.fundAssets_preserves
      (I := fun v => Call.Kept s.vault.here (l x) (v.tokens x)) ?_
      (.refl happroved.closed) (ClaimManager.publishCycle_ok hu).funded
    intro v v' asset amount hv hf
    exact hv.trans ((Ledger.transferFrom_ok hf.paid).2.2.2.kept s.vault_ne_coordinator hv.closed)
  exact (happroved.trans hpublished).trans
    (Ledger.approve_kept hclear s.vault_ne_coordinator hpublished.closed)

theorem fundRecordedAcquisition_fundable {p : PublishInputs} (hs : Fundable s w)
    (h : fundRecordedAcquisition s w sender id p = .ok w') : Fundable s w' := by
  have hf := fundRecordedAcquisition_ok h
  simp only [fundRecordedAcquisition,releaseAndFund,bind_eq_ok,revertIf_eq_ok,exists_const,
    pure_eq_ok] at h
  obtain ⟨-,-,-,w₁,hrelease,w₂,hpublish,rfl⟩ := h
  obtain ⟨v,hr,rfl⟩ := releaseExact_ok hrelease
  obtain ⟨-,hallow,hp⟩ := Ledger.transfer_ok hr.paid
  rw [s.releases_to] at hp
  have hreleased : ∀ x, x ≠ s.vault.weth → (v.tokens x).Closed s.vault.here := by
    intro x hx a
    by_cases hk : x = (w.coordinator.acquisitions id).stockToken
    · subst hk
      exact (hallow _ a).trans (hs.closed _ hx a)
    · rw [hp.others x hk]
      exact hs.closed x hx a
  have hkept := fun x hx => publishExact_kept (x := x) hpublish (hreleased x hx)
  have hstatus : ∀ i, (w₂.coordinator.acquisitions i).status ≠ .none →
      (w.coordinator.acquisitions i).status ≠ .none ∧
      (w₂.coordinator.acquisitions i).stockToken = (w.coordinator.acquisitions i).stockToken ∧
      (w₂.coordinator.acquisitions i).acquiredStock =
        (w.coordinator.acquisitions i).acquiredStock ∧
      (w₂.coordinator.acquisitions i).distributionAmount =
        (w.coordinator.acquisitions i).distributionAmount := by
    intro i
    rw [show w₂.coordinator.acquisitions = _ from hf.acquisitions]
    by_cases hid : i = id
    · subst hid
      simp [hf.status]
    · simp [set_other _ hid]
  refine ⟨fun x hx => (hkept x hx).closed,fun x hx => ?_,?_,fun i hi => ?_,fun i hi => ?_⟩
  · have hcovered := hs.covered x hx
    have hbalance := (hkept x hx).balance
    have hbal := hp.balance x s.vault.here
    simp only [s.vault_ne_coordinator,and_false,if_false,and_true,Nat.add_zero] at hbal
    rw [hf.distributionAllocated,hf.distributionReleased,set_apply]
    simp only [World.afterVault,World.atVault] at hbalance hbal ⊢
    split
    · subst_vars
      rw [if_pos rfl] at hbal
      omega
    · rename_i hk
      rw [if_neg hk] at hbal
      omega
  · rw [hf.distributionAllocated]
    exact hs.bounded
  · obtain ⟨hne,htoken,-,-⟩ := hstatus i hi
    rw [htoken]
    exact hs.approved i hne
  · obtain ⟨hne,-,hacquired,hamount⟩ := hstatus i hi
    rw [hacquired,hamount]
    exact hs.share i hne

theorem exec_fundable {tx : Tx} (hs : Fundable s w) (h : exec s w tx = .ok w') :
    Fundable s w' := by
  cases exec_executed h with
  | elapse seconds => exact { hs with }
  | acquired hu => exact executeAndRecordAcquisition_fundable hs hu
  | funded hu => exact fundRecordedAcquisition_fundable hs hu
  | foreign hu => exact hs.of_kept (fun x hx => foreign_kept hu (hs.closed x hx)) rfl rfl

theorem Reachable.fundable (h : Reachable s w) : Fundable s w :=
  Machine.Reachable.invariant (fun _ hi => hi.fundable) (fun _ _ _ hs hx => exec_fundable hs hx) h

end Custody

section Success

theorem approve_succeeds {l : Ledger} {asset owner spender : Address} (value : ℕ) (ho : owner ≠ 0)
    (hs : spender ≠ 0) : ∃ l', l.approve asset owner spender value = .ok l' := by
  simp [Ledger.approve,Token.approve_succeeds ho hs,bind,Except.bind,pure,Except.pure]

theorem deliver_succeeds {d : StockVault.Deployment} {mismatch : ℕ → ℕ → StockVault.Error}
    {l : Ledger} (h0 : d.here ≠ 0) (ht : target ≠ 0) (hne : target ≠ d.here)
    (hbal : amount ≤ (l stockToken).balanceOf d.here) :
    ∃ l', StockVault.deliver d mismatch l stockToken target amount = .ok l' := by
  obtain ⟨l',hl⟩ := Ledger.transfer_succeeds h0 ht hbal
  obtain ⟨-,-,hp⟩ := Ledger.transfer_ok hl
  have hsent := hp.balance stockToken d.here
  have hreceived := hp.balance stockToken target
  simp only [hne,hne.symm,and_false,and_true,if_false,if_true,Nat.add_zero] at hsent hreceived
  refine ⟨l',?_⟩
  simp only [StockVault.deliver,bind_eq_ok,mapError_eq_ok,sub_eq_ok,revertIf_eq_ok,exists_const,
    pure_eq_ok]
  exact ⟨l',hl,_,⟨by omega,rfl⟩,_,⟨by omega,rfl⟩,by omega,by omega,rfl⟩

/-- A release is refused for a foreign token, for nothing at all, and for more than is left. -/
theorem release_succeeds {γ : Type} {d : StockVault.Deployment} {v : StockVault.World γ}
    (happroved : d.isApprovedStockToken stockToken = true) (hpos : 0 < amount)
    (hleft : v.stock.distributionReleased stockToken+amount ≤
      v.stock.distributionAllocated stockToken)
    (hlt : v.stock.distributionAllocated stockToken < wordBound)
    (h0 : d.here ≠ 0) (ht : d.distributionFundingCoordinator ≠ 0)
    (hne : d.distributionFundingCoordinator ≠ d.here)
    (hbal : amount ≤ (v.tokens stockToken).balanceOf d.here) :
    ∃ v', StockVault.releaseToDistributionCoordinator d v d.acquisitionExecutor stockToken amount =
      .ok v' := by
  obtain ⟨l,hl⟩ := @deliver_succeeds _ _ _ _ .distributionDeliveryMismatch _ h0 ht hne hbal
  simp only [StockVault.releaseToDistributionCoordinator,bind_eq_ok,revertIf_eq_ok,sub_eq_ok,
    add_eq_ok,exists_const,pure_eq_ok]
  exact ⟨_,by simp,by simp [happroved],by omega,_,⟨by omega,rfl⟩,by omega,_,⟨by omega,rfl⟩,l,hl,
    rfl⟩

/-- Inputs that the funding accepts of the root publisher at the current time. -/
structure WellFormed (w : World) (p : PublishInputs) : Prop where
  fresh : w.coordinator.cycleUsed p.cycleId = false
  merkleRoot : p.merkleRoot ≠ 0
  allocationsContentHash : p.allocationsContentHash ≠ 0
  manifestEnvelopeHash : p.manifestEnvelopeHash ≠ 0
  claimStart : w.timestamp < p.claimStart
  claimDeadline : p.claimStart < p.claimDeadline

/-- An asset that the owner of the cycle holds and has approved to the manager. -/
theorem fundAsset_succeeds {d : ClaimManager.Deployment} {c : Uint256} (htoken : stockToken ≠ 0)
    (hpos : 0 < amount) (hfresh : (u.manager.assetFunding c stockToken).registered = false)
    (h0 : d.here ≠ 0) (hs : sender ≠ 0) (hne : sender ≠ d.here)
    (hallow : amount ≤ (u.tokens stockToken).allowance sender d.here)
    (hbal : amount ≤ (u.tokens stockToken).balanceOf sender)
    (hcovered : u.manager.totalOutstanding stockToken ≤ (u.tokens stockToken).balanceOf d.here) :
    ∃ u', ClaimManager.fundAsset d sender c u stockToken amount = .ok u' := by
  obtain ⟨l,hl⟩ := Ledger.transferFrom_succeeds hs h0 h0 hallow hbal
  have hreceived := (Ledger.transferFrom_ok hl).2.2.2.balance stockToken d.here
  simp only [hne.symm,and_false,and_true,if_false,if_true,Nat.add_zero] at hreceived
  have hlt := (l stockToken).balanceOf_lt d.here
  simp only [ClaimManager.fundAsset,bind_eq_ok,mapError_eq_ok,revertIf_eq_ok,sub_eq_ok,add_eq_ok,
    exists_const,pure_eq_ok]
  exact ⟨_,htoken,by omega,by simp [hfresh],l,hl,_,⟨by omega,rfl⟩,by omega,_,⟨by omega,rfl⟩,rfl⟩

/-- A publication of one asset by the owner of the manager. -/
theorem publishCycle_succeeds {p : PublishInputs}
    (howner : u.manager.ownership.owner = sender)
    (hunpublished : (u.manager.cycles p.cycleId).published = false)
    (hroot : p.merkleRoot ≠ 0) (hallocations : p.allocationsContentHash ≠ 0)
    (hmanifest : p.manifestEnvelopeHash ≠ 0) (hstart : u.timestamp < p.claimStart)
    (hdeadline : p.claimStart < p.claimDeadline)
    (hfunds : ∃ u', ClaimManager.fundAsset s.manager sender p.cycleId
      (u.opened (p.publication stockToken amount)) stockToken amount = .ok u') :
    ∃ u', ClaimManager.publishCycle s.manager u sender (p.publication stockToken amount) =
      .ok u' := by
  obtain ⟨u',hu'⟩ := hfunds
  have hall : ClaimManager.fundAssets s.manager sender p.cycleId [(stockToken,amount)]
      (u.opened (p.publication stockToken amount)) = .ok u' := by
    simp only [ClaimManager.fundAssets,bind_eq_ok]
    exact ⟨u',hu',rfl⟩
  refine ⟨u',?_⟩
  simp only [ClaimManager.publishCycle,bind_eq_ok,mapError_eq_ok,Ownable.checkOwner_eq_ok,
    revertIf_eq_ok,exists_const]
  exact ⟨howner,by simpa [PublishInputs.publication] using hunpublished,hroot,
    not_or.2 ⟨hallocations,hmanifest⟩,Nat.not_le.2 hstart,Nat.not_le.2 hdeadline,
    by simp [PublishInputs.publication],by simp [PublishInputs.publication],hall⟩

theorem System.manager_ne_zero (s : System) : s.manager.here ≠ 0 := by
  have h := s.coordinator.nonzero
  rw [s.manager_here] at h
  intro he
  simp [he] at h

theorem System.coordinator_ne_zero (s : System) : s.coordinator.here ≠ 0 := by
  have h := s.vault.nonzero
  rw [s.releases_to] at h
  intro he
  simp [he] at h

theorem approved_ne_zero (h : s.vault.isApprovedStockToken stockToken = true) :
    stockToken ≠ 0 := by
  have hmem : stockToken ∈ s.vault.approvedStockTokens := by
    simpa [StockVault.Deployment.isApprovedStockToken] using h
  exact (s.vault.basket_system _ hmem).1

/-- What is recorded is still allocated and not released. -/
theorem Conserved.releasable (hc : Conserved s w)
    (hrecorded : (w.coordinator.acquisitions id).status = .recorded) :
    w.stock.distributionReleased (w.coordinator.acquisitions id).stockToken+
        (w.coordinator.acquisitions id).distributionAmount ≤
      w.stock.distributionAllocated (w.coordinator.acquisitions id).stockToken := by
  set token := (w.coordinator.acquisitions id).stockToken
  have hmem : id ∈ Finset.Icc 1 w.coordinator.acquisitionCount :=
    Finset.mem_Icc.2 ((hc.recorded id).1 (by rw [hrecorded]; decide))
  rw [hc.released,hc.allocated,← Finset.add_sum_erase _ _ hmem,← Finset.add_sum_erase _ _ hmem]
  have hnone : (w.coordinator.acquisitions id).fundedOf token = 0 := by
    simp [AcquisitionRecord.fundedOf,hrecorded]
  have hown : (w.coordinator.acquisitions id).amountOf token =
      (w.coordinator.acquisitions id).distributionAmount := by
    simp [AcquisitionRecord.amountOf,token]
  have hrest : ∑ i ∈ (Finset.Icc 1 w.coordinator.acquisitionCount).erase id,
        (w.coordinator.acquisitions i).fundedOf token ≤
      ∑ i ∈ (Finset.Icc 1 w.coordinator.acquisitionCount).erase id,
        (w.coordinator.acquisitions i).amountOf token := by
    apply Finset.sum_le_sum
    intro i _
    unfold AcquisitionRecord.fundedOf AcquisitionRecord.amountOf
    split_ifs <;> simp_all
  omega

/-- What a release leaves: the amount is at the coordinator, and nobody else's tokens moved. -/
structure InTransit (s : System) (w w' : World) (stockToken : Address) (amount : ℕ) : Prop where
  manager : w'.manager = w.manager
  timestamp : w'.timestamp = w.timestamp
  coordinator : (w'.tokens stockToken).balanceOf s.coordinator.here =
    (w.tokens stockToken).balanceOf s.coordinator.here+amount
  custody : (w'.tokens stockToken).balanceOf s.manager.here =
    (w.tokens stockToken).balanceOf s.manager.here

theorem releaseExact_succeeds (happroved : s.vault.isApprovedStockToken stockToken = true)
    (hpos : 0 < amount) (hheld : amount ≤ (w.tokens stockToken).balanceOf s.vault.here)
    (hlt : w.stock.distributionAllocated stockToken < wordBound)
    (hleft : w.stock.distributionReleased stockToken+amount ≤
      w.stock.distributionAllocated stockToken) :
    ∃ w', releaseExact s w stockToken amount
      ((w.tokens stockToken).balanceOf s.coordinator.here) = .ok w' ∧
        InTransit s w w' stockToken amount := by
  have hne := s.vault_ne_coordinator
  obtain ⟨v,hv⟩ := release_succeeds (v := w.atVault) happroved hpos hleft hlt
    s.vault_ne_zero (by rw [s.releases_to]; exact s.coordinator_ne_zero)
    (by rw [s.releases_to]; exact hne.symm) hheld
  rw [s.executor] at hv
  have hr := StockVault.releaseToDistributionCoordinator_ok hv
  have hp := (Ledger.transfer_ok hr.paid).2.2
  rw [s.releases_to] at hp
  have hcoordinator := hp.balance stockToken s.coordinator.here
  have hmanager := hp.balance stockToken s.manager.here
  simp only [hne.symm,s.vault_ne_manager.symm,s.coordinator_ne_manager.symm,and_false,and_true,
    if_false,if_true,Nat.add_zero] at hcoordinator hmanager
  simp only [World.atVault] at hcoordinator hmanager
  have hreleased : v.stock.distributionReleased stockToken =
      w.stock.distributionReleased stockToken+amount := by
    rw [hr.distributionReleased,set_same]
    rfl
  have hreserve : v.stock.reserveAllocated = w.stock.reserveAllocated := hr.reserveAllocated
  refine ⟨w.afterVault v,?_,hr.others,rfl,hcoordinator,hmanager⟩
  simp only [releaseExact,bind_eq_ok,mapError_eq_ok,revertIf_eq_ok,sub_eq_ok,exists_const,
    pure_eq_ok]
  exact ⟨v,hv,_,⟨by omega,rfl⟩,by omega,_,⟨by omega,rfl⟩,by omega,by simp [hreserve],rfl⟩

/-- Whatever is in transit can be published. -/
theorem publishExact_succeeds {p : PublishInputs} {coordBaseline : ℕ}
    (howner : w.manager.ownership.owner = s.coordinator.here)
    (hunpublished : (w.manager.cycles p.cycleId).published = false)
    (hroot : p.merkleRoot ≠ 0) (hallocations : p.allocationsContentHash ≠ 0)
    (hmanifest : p.manifestEnvelopeHash ≠ 0) (hstart : w.timestamp < p.claimStart)
    (hdeadline : p.claimStart < p.claimDeadline) (htoken : stockToken ≠ 0) (hpos : 0 < amount)
    (hfresh : (w.manager.assetFunding p.cycleId stockToken).registered = false)
    (htransit : (w.tokens stockToken).balanceOf s.coordinator.here = coordBaseline+amount)
    (hcovered : w.manager.totalOutstanding stockToken ≤
      (w.tokens stockToken).balanceOf s.manager.here) :
    ∃ w', publishExact s w p stockToken amount coordBaseline = .ok w' := by
  have hne := s.coordinator_ne_manager
  obtain ⟨l,hl⟩ := @approve_succeeds w.tokens stockToken _ _ amount
    s.coordinator_ne_zero s.manager_ne_zero
  obtain ⟨hsame,hallow⟩ := Ledger.approve_frame hl
  have hbalances := (hsame stockToken).1
  have hfunds : ∃ u', ClaimManager.fundAsset s.manager s.coordinator.here p.cycleId
      ({ w with tokens := l }.atManager.opened (p.publication stockToken amount)) stockToken
        amount = .ok u' :=
    fundAsset_succeeds htoken hpos hfresh s.manager_ne_zero s.coordinator_ne_zero hne
      (by
        show amount ≤ (l stockToken).allowance _ _
        rw [hallow,if_pos ⟨rfl,rfl,rfl⟩])
      (by
        show amount ≤ (l stockToken).balanceOf _
        rw [hbalances]
        omega)
      (by
        show _ ≤ (l stockToken).balanceOf _
        rw [hbalances]
        exact hcovered)
  obtain ⟨u,hu⟩ := publishCycle_succeeds (u := { w with tokens := l }.atManager) howner
    hunpublished hroot hallocations hmanifest hstart hdeadline hfunds
  have hpublished := (ClaimManager.publishCycle_ok hu).funded
  simp only [PublishInputs.publication,List.zip_cons_cons,List.zip_nil_right,
    ClaimManager.fundAssets,bind_eq_ok] at hpublished
  obtain ⟨u',hu',hend⟩ := hpublished
  cases hend
  have hpaid := (Ledger.transferFrom_ok (ClaimManager.fundAsset_ok hu').paid).2.2.2
  have hsent := hpaid.balance stockToken s.coordinator.here
  have hreceived := hpaid.balance stockToken s.manager.here
  simp only [hne,hne.symm,and_false,and_true,if_false,if_true,Nat.add_zero,
    ClaimManager.World.opened,World.atManager,hbalances] at hsent hreceived
  obtain ⟨l',hl'⟩ := @approve_succeeds u.tokens stockToken _ _ 0
    s.coordinator_ne_zero s.manager_ne_zero
  obtain ⟨hsame',hallow'⟩ := Ledger.approve_frame hl'
  have hbalances' := (hsame' stockToken).1
  have hcleared : (l' stockToken).allowance s.coordinator.here s.manager.here = 0 := by
    rw [hallow',if_pos ⟨rfl,rfl,rfl⟩]
  simp only [publishExact,bind_eq_ok,mapError_eq_ok,revertIf_eq_ok,sub_eq_ok,exists_const,
    pure_eq_ok]
  refine ⟨_,l,hl,u,hu,l',hl',?_,_,⟨?_,rfl⟩,?_,by simp [hcleared],rfl⟩
  · rw [hbalances']
    omega
  · rw [hbalances']
    omega
  · rw [hbalances']
    omega

/-- With a positive share and well-formed inputs nothing stops a funding. -/
theorem fundRecordedAcquisition_succeeds {p : PublishInputs} (h : Reachable s w)
    (hrecorded : (w.coordinator.acquisitions id).status = .recorded) (hw : WellFormed w p)
    (hpos : 0 < (w.coordinator.acquisitions id).distributionAmount) :
    ∃ w', fundRecordedAcquisition s w s.coordinator.rootPublisher id p = .ok w' := by
  have hc := h.conserved
  have hs := h.fundable
  have hm := h.manager.solvent
  have happroved := hs.approved id (by rw [hrecorded]; decide)
  have hunpublished : (w.manager.cycles p.cycleId).published = false := by
    have hused := (hc.used p.cycleId).not.1 (by rw [hw.fresh]; decide)
    simpa using hused
  have hfresh : (w.manager.assetFunding p.cycleId
      (w.coordinator.acquisitions id).stockToken).registered = false := by
    by_contra hreg
    have hpub := hm.published p.cycleId _ (Bool.eq_true_of_not_eq_false hreg)
    exact absurd (hunpublished.symm.trans hpub) (by decide)
  have hleft := hc.releasable hrecorded
  have hheld : (w.coordinator.acquisitions id).distributionAmount ≤
      (w.tokens (w.coordinator.acquisitions id).stockToken).balanceOf s.vault.here := by
    have hcovered := hs.covered _ (StockVault.approved_ne_weth happroved)
    omega
  -- the record is advanced first, which neither the vault nor the manager sees
  obtain ⟨w₁,hrelease,htransit⟩ := @releaseExact_succeeds s
    { w with coordinator := w.coordinator.bindCycle id p.cycleId }
    (w.coordinator.acquisitions id).stockToken (w.coordinator.acquisitions id).distributionAmount
    happroved hpos hheld (hs.bounded _) hleft
  obtain ⟨w₂,hpublish⟩ := publishExact_succeeds (w := w₁) (s := s) (p := p)
    (by rw [htransit.manager,hc.ownership]) (by rw [htransit.manager]; exact hunpublished)
    hw.merkleRoot hw.allocationsContentHash hw.manifestEnvelopeHash
    (by rw [htransit.timestamp]; exact hw.claimStart) hw.claimDeadline
    (approved_ne_zero happroved) hpos (by rw [htransit.manager]; exact hfresh)
    htransit.coordinator
    (by rw [htransit.manager,htransit.custody]; exact hm.covered _)
  simp only [fundRecordedAcquisition,releaseAndFund,bind_eq_ok,revertIf_eq_ok,exists_const,
    pure_eq_ok]
  exact ⟨_,by simp,by simp [hrecorded],by simp [hw.fresh],w₁,hrelease,w₂,hpublish,rfl⟩

end Success

section Claim

theorem distributionShare_pos_iff (n : ℕ) : 0 < StockVault.distributionShare n ↔ 2 ≤ n := by
  unfold StockVault.distributionShare StockVault.distributionPercent StockVault.splitDenominator
  omega

/-- A recorded acquisition can be funded if and only if it bought at least two units of its
stock; the share of a single unit is nothing, which the vault does not release. -/
theorem recorded_fundable_iff {p : PublishInputs} (h : Reachable s w)
    (hrecorded : (w.coordinator.acquisitions id).status = .recorded)
    (hsender : sender = s.coordinator.rootPublisher) (hw : WellFormed w p) :
    (∃ w', fundRecordedAcquisition s w sender id p = .ok w') ↔
      2 ≤ (w.coordinator.acquisitions id).acquiredStock := by
  have hshare := h.fundable.share id (by rw [hrecorded]; decide)
  rw [← distributionShare_pos_iff,← hshare]
  constructor
  · rintro ⟨w',hf⟩
    simp only [fundRecordedAcquisition,releaseAndFund,bind_eq_ok,revertIf_eq_ok,exists_const,
      pure_eq_ok] at hf
    obtain ⟨-,-,-,w₁,hrelease,-⟩ := hf
    obtain ⟨v,hr,-⟩ := releaseExact_ok hrelease
    exact hr.amount_pos
  · intro hpos
    rw [hsender]
    exact fundRecordedAcquisition_succeeds h hrecorded hw hpos

/-- An adapter that delivers `units` of stock for all its input. -/
def deliveringAdapter (units : ℕ) : Behaviour :=
  ⟨[.token 40 (.transferFrom 41 201 43 1000),.token 50 (.mint 43 201 units)],some units⟩

/-- One acquisition of some units, recorded. -/
def recordedUnits (units : ℕ) : World :=
  Machine.run (exec sample)
    ⟨0,fun _ => Token.empty,.deployed 200,.deployed,.deployed⟩
    [.foreign (.token 40 (.mint 2 201 1000)),
      .executeAndRecordAcquisition 11 50 1000 1 0 (deliveringAdapter units)]

theorem recordedUnits_reachable (units : ℕ) : Reachable sample (recordedUnits units) :=
  (Machine.Reachable.of_init ⟨rfl,rfl,rfl,by decide,by decide,fun _ _ _ _ => rfl,fun _ => rfl⟩).run _

def samplePublish : PublishInputs := ⟨5,1,1,1,10,20⟩

theorem twoUnits_fundable : ∃ w',
    fundRecordedAcquisition sample (recordedUnits 2) 12 1 samplePublish = .ok w' :=
  (recorded_fundable_iff (recordedUnits_reachable 2) (by decide +kernel) rfl
    ⟨by decide +kernel,by decide,by decide,by decide,by decide +kernel,by decide⟩).mpr
      (by decide +kernel)

def refusal {α : Type} : Except Error α → Option Error
  | .ok _ => none
  | .error e => some e

/-- The acquisition of a single unit is recorded, and its funding reverts. -/
theorem oneUnit_unfundable : Reachable sample (recordedUnits 1) ∧
    ((recordedUnits 1).coordinator.acquisitions 1).status = .recorded ∧
    WellFormed (recordedUnits 1) samplePublish ∧
    refusal (fundRecordedAcquisition sample (recordedUnits 1) sample.coordinator.rootPublisher 1
      samplePublish) = some (.vault .zeroAmount) :=
  ⟨recordedUnits_reachable 1,by decide +kernel,
    ⟨by decide +kernel,by decide,by decide,by decide,by decide +kernel,by decide⟩,
    by decide +kernel⟩

end Claim

end Coordinator
end BpsProtocol
