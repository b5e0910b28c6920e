import BpsProtocol.CoordinatorFunding
import BpsProtocol.CoordinatorLog

/-! The acquisition budget of the wired system.
The WETH of the vault, with what it has spent on acquisitions, never becomes less: whatever
the adapters and the claimants do, an acquisition takes its input exactly, and nobody else
may spend for the vault. -/
namespace BpsProtocol

open Checked Mapping Erc20

theorem Ledger.Paid.allowance_le_at {l l' : Ledger} {asset source target : Address} {value : ℕ}
    (h : l.Paid l' asset source target value) (x o a : Address) :
    (l' x).allowance o a ≤ (l x).allowance o a := by
  by_cases hx : x = asset
  · subst hx
    exact h.allowance_le o a
  · rw [h.others x hx]

namespace Coordinator

variable {s : System} {w w' : World} {u u' : ClaimManager.World} {tx : Tx}
  {sender stockToken x : Address} {wethAmountIn minStockOut deadline id : ℕ}

/-- A call from outside approves nobody for the vault. -/
theorem foreign_allowance_le {tx : ClaimManager.Tx} (h : foreign s u tx = .ok u')
    (x a : Address) :
    (u'.tokens x).allowance s.vault.here a ≤ (u.tokens x).allowance s.vault.here a := by
  unfold foreign at h
  split at h
  · cases h
  rename_i sender hsender
  simp only [bind_eq_ok,revertIf_eq_ok,exists_const,List.mem_cons,List.not_mem_nil,or_false,
    not_or] at h
  obtain ⟨⟨-,-,hvault,-⟩,h⟩ := h
  rcases ClaimManager.exec_cases h with ⟨_,rfl,-⟩ | ⟨_,p,rfl,hp⟩ | ⟨_,_,_,_,_,-,hc⟩ |
    ⟨_,_,_,-,hb⟩ | ⟨_,_,_,-,hr⟩ | ⟨_,_,_,-,-,rfl⟩ | ⟨_,call,l,rfl,-,hl,rfl⟩
  · cases hsender
  · refine ClaimManager.fundAssets_preserves
      (I := fun v => (v.tokens x).allowance s.vault.here a ≤
        (u.tokens x).allowance s.vault.here a) ?_
      (show ((u.opened p).tokens x).allowance s.vault.here a ≤ _ from le_rfl) hp.funded
    intro v v' asset amount hv hf
    exact ((Ledger.transferFrom_ok hf.paid).2.2.2.allowance_le_at _ _ _).trans hv
  · exact (Ledger.transfer_ok hc.paid).2.2.allowance_le_at _ _ _
  · refine ClaimManager.claimAll_preserves
      (I := fun v => (v.tokens x).allowance s.vault.here a ≤
        (u.tokens x).allowance s.vault.here a) ?_ le_rfl hb
    intro v v' asset amount proof hv hc
    exact ((Ledger.transfer_ok hc.paid).2.2.allowance_le_at _ _ _).trans hv
  · rcases hr.paid with ⟨-,hpaid⟩ | ⟨-,hsame⟩
    · exact (Ledger.transfer_ok hpaid).2.2.allowance_le_at _ _ _
    · rw [hsame]
  · exact le_rfl
  · obtain rfl := Option.some.inj hsender
    exact Ledger.call_allowance_le hvault hl x a

theorem acquireStock_allowance_le {b : Behaviour} {timestamp reported : ℕ} {l l' : Ledger}
    {m m' : ClaimManager.Storage}
    (h : b.acquireStock s timestamp stockToken wethAmountIn minStockOut deadline (l,m) =
      some (reported,(l',m'))) (x a : Address) :
    (l' x).allowance s.vault.here a ≤ (l x).allowance s.vault.here a := by
  simp only [Behaviour.acquireStock,Option.map_eq_some_iff,Prod.mk.injEq] at h
  obtain ⟨_,-,-,rfl,-⟩ := h
  refine Machine.run_preserves
    (I := fun v : ClaimManager.World => (v.tokens x).allowance s.vault.here a ≤
      (l x).allowance s.vault.here a) ?_ le_rfl b.calls
  intro v tx v' hv hx
  exact (foreign_allowance_le hx x a).trans hv

/-- The WETH in the vault and what the vault has spent. -/
def budget (s : System) (w : World) : ℕ :=
  (w.tokens s.vault.weth).balanceOf s.vault.here+w.stock.totalWethSpent

/-- The vault approved nobody, in WETH too, and its books cover what it allocated. -/
structure Secured (s : System) (w : World) : Prop where
  fundable : Fundable s w
  closed : (w.tokens s.vault.weth).Closed s.vault.here

theorem Initial.secured (h : Initial s w) : Secured s w :=
  ⟨h.fundable,h.closed _ (by simp) _⟩

/-- An acquisition moves its input from the vault's WETH to what the vault has spent. -/
theorem executeAcquisition_budget {b : Behaviour} {acquired : ℕ}
    {v : StockVault.World ClaimManager.Storage}
    (hclosed : (w.tokens s.vault.weth).Closed s.vault.here)
    (h : StockVault.executeAcquisition s.vault (b.acquireStock s w.timestamp) w.atVault sender
      stockToken wethAmountIn minStockOut deadline = .ok (acquired,v)) :
    (v.tokens s.vault.weth).Closed s.vault.here ∧
      budget s (w.afterVault v) = budget s w := by
  have ha := StockVault.executeAcquisition_ok h
  obtain ⟨tokens,hconv,hpaid⟩ := ha.converted
  obtain ⟨approved,called,happrove,hcall,hclear⟩ := hconv.called
  have hne : s.vault.weth ≠ stockToken := (StockVault.approved_ne_weth ha.approved).symm
  have hcalled := acquireStock_allowance_le hcall s.vault.weth
  -- the adapter's own allowance is cleared, the others were never there
  have hcleared : (tokens s.vault.weth).Closed s.vault.here := by
    intro a
    rw [(Ledger.approve_frame hclear).2]
    split
    · rfl
    · rename_i hother
      have hle := hcalled a
      rw [(Ledger.approve_frame happrove).2,if_neg hother] at hle
      exact Nat.le_zero.1 (hle.trans (hclosed a).le)
  have hlast : v.tokens s.vault.weth = tokens s.vault.weth := by
    rcases Ledger.transferPositive_ok hpaid with ⟨-,hpaid⟩ | ⟨-,hsame⟩
    · exact (Ledger.transfer_ok hpaid).2.2.others _ hne
    · rw [hsame]
  have hspent := ha.totalWethSpent
  have hweth := hconv.weth
  rw [hlast]
  refine ⟨hcleared,?_⟩
  simp only [budget,World.afterVault,World.atVault] at hspent hweth ⊢
  rw [hlast,hspent]
  omega

/-- A funding pays in stock, so it leaves the budget where it is or above. -/
theorem fundRecordedAcquisition_budget {p : PublishInputs} (hs : Secured s w)
    (h : fundRecordedAcquisition s w sender id p = .ok w') :
    (w'.tokens s.vault.weth).Closed s.vault.here ∧ budget s w ≤ budget s w' := by
  have hf := fundRecordedAcquisition_ok h
  have hstatus : (w.coordinator.acquisitions id).status ≠ .none := by
    rw [hf.status]
    decide
  have hne : s.vault.weth ≠ (w.coordinator.acquisitions id).stockToken :=
    (StockVault.approved_ne_weth (hs.fundable.approved id hstatus)).symm
  simp only [fundRecordedAcquisition,releaseAndFund,bind_eq_ok,revertIf_eq_ok,exists_const,
    pure_eq_ok] at h
  obtain ⟨-,-,-,w₁,hrelease,w₂,hpublish,rfl⟩ := h
  obtain ⟨v,hr,rfl⟩ := releaseExact_ok hrelease
  have hp := (Ledger.transfer_ok hr.paid).2.2
  have hsame : v.tokens s.vault.weth = w.tokens s.vault.weth := hp.others _ hne
  have hkept := publishExact_kept (x := s.vault.weth) hpublish
    (show (v.tokens s.vault.weth).Closed s.vault.here by rw [hsame]; exact hs.closed)
  have hstock := (publishExact_ok hpublish).2.1
  have hspent : v.stock.totalWethSpent = w.stock.totalWethSpent := hr.totalWethSpent
  have hbalance := hkept.balance
  refine ⟨hkept.closed,?_⟩
  simp only [budget,World.afterVault,hstock] at hbalance ⊢
  rw [hsame] at hbalance
  rw [hspent]
  exact Nat.add_le_add_right hbalance _

theorem exec_secured (hs : Secured s w) (h : exec s w tx = .ok w') :
    Secured s w' ∧ budget s w ≤ budget s w' := by
  have hfundable := exec_fundable hs.fundable h
  cases exec_executed h with
  | elapse seconds => exact ⟨⟨hfundable,hs.closed⟩,le_rfl⟩
  | acquired hu =>
    simp only [executeAndRecordAcquisition,bind_eq_ok,revertIf_eq_ok,mapError_eq_ok,add_eq_ok,
      exists_const,pure_eq_ok] at hu
    obtain ⟨-,-,-,-,-,⟨acquired,v⟩,hv,record,-,_,⟨-,rfl⟩,he⟩ := hu
    obtain ⟨-,rfl⟩ := Prod.mk.inj he
    obtain ⟨hclosed,hbudget⟩ := executeAcquisition_budget hs.closed hv
    exact ⟨⟨hfundable,hclosed⟩,hbudget.ge⟩
  | funded hu =>
    obtain ⟨hclosed,hbudget⟩ := fundRecordedAcquisition_budget hs hu
    exact ⟨⟨hfundable,hclosed⟩,hbudget⟩
  | foreign hu =>
    have hkept := foreign_kept hu hs.closed
    exact ⟨⟨hfundable,hkept.closed⟩,Nat.add_le_add_right hkept.balance _⟩

/-- Along every run the budget only grows. -/
theorem run_secured (hs : Secured s w) (txs : List Tx) :
    Secured s (Machine.run (exec s) w txs) ∧ budget s w ≤ budget s (Machine.run (exec s) w txs) :=
  Machine.run_preserves (I := fun v => Secured s v ∧ budget s w ≤ budget s v)
    (fun _ _ _ hv hx => ⟨(exec_secured hv.1 hx).1,hv.2.trans (exec_secured hv.1 hx).2⟩)
    ⟨hs,le_rfl⟩ txs

/-- The records account for all that the vault has spent. -/
def Accounted (w : World) : Prop :=
  w.stock.totalWethSpent = ∑ i ∈ Finset.Icc 1 w.coordinator.acquisitionCount,
    (w.coordinator.acquisitions i).wethSpent

theorem exec_accounted (hc : Conserved s w) (ha : Accounted w) (h : exec s w tx = .ok w') :
    Accounted w' := by
  unfold Accounted at ha ⊢
  cases exec_executed h with
  | elapse seconds => exact ha
  | acquired hu =>
    have hcount := (executeAndRecordAcquisition_ok hc.ownership hu).acquisitionCount
    obtain ⟨record,he⟩ := executeAndRecordAcquisition_entered hu
    rw [hcount,he.acquisitions,sum_add_record (fun r => r.wethSpent),he.totalWethSpent,ha]
  | @funded _ _ id p hu =>
    have hl := fundRecordedAcquisition_logged hu
    have hid := (hc.recorded id).1 (by
      rw [hl.funded.status]
      decide)
    have hsum := sum_set_record (fun r => r.wethSpent) w.coordinator.acquisitions
      { w.coordinator.acquisitions id with status := .funded, cycleId := p.cycleId } hid
    rw [hl.funded.acquisitionCount,hl.funded.acquisitions,hl.totalWethSpent,ha]
    exact (Nat.add_right_cancel hsum).symm
  | foreign hu => exact ha

theorem Reachable.accounted (h : Reachable s w) : Accounted w :=
  (Machine.Reachable.invariant (I := fun u => Conserved s u ∧ Accounted u)
    (fun _ hi => ⟨hi.conserved,by
      simp [Accounted,hi.stock,hi.coordinator,StockVault.Storage.deployed,Storage.deployed]⟩)
    (fun _ _ _ hs hx => ⟨exec_conserved hs.1 hx,exec_accounted hs.1 hs.2 hx⟩) h).2

theorem Conserved.released_le (hc : Conserved s w) (token : Address) :
    w.stock.distributionReleased token ≤ w.stock.distributionAllocated token := by
  rw [hc.released,hc.allocated]
  apply Finset.sum_le_sum
  intro i _
  unfold AcquisitionRecord.fundedOf
  split
  · exact le_rfl
  · exact Nat.zero_le _

/-- No more than eighty percent of what was bought is recorded for distribution. -/
theorem Reachable.share_le (h : Reachable s w) (token : Address) :
    100*w.stock.distributionAllocated token ≤
      80*∑ i ∈ Finset.Icc 1 w.coordinator.acquisitionCount with
        (w.coordinator.acquisitions i).stockToken = token,
        (w.coordinator.acquisitions i).acquiredStock := by
  rw [h.conserved.allocated token,Finset.mul_sum,Finset.mul_sum,Finset.sum_filter]
  apply Finset.sum_le_sum
  intro i hi
  have hstatus := (h.conserved.recorded i).2 (Finset.mem_Icc.1 hi)
  have hshare := h.fundable.share i hstatus
  have hfloor := (StockVault.distributionShare_bounds
    (w.coordinator.acquisitions i).acquiredStock).1
  unfold AcquisitionRecord.amountOf
  split
  · rw [hshare]
    exact hfloor
  · exact le_rfl

end Coordinator
end BpsProtocol
