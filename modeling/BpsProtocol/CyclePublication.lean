import BpsProtocol.CoordinatorFunding

/-! When the claim manager creates a cycle.
For an owner who holds and has approved the amounts, `publishCycle` succeeds exactly where the
window is ordered, root and hashes are set, and the assets are distinct and funded. -/
namespace BpsProtocol
namespace ClaimManager

open Checked Erc20

variable {d : Deployment} {w w' : World} {sender asset : Address} {c : Uint256} {amount : ℕ}

/-- The sender can fund the asset of a cycle that has not registered it. -/
structure Covers (d : Deployment) (w : World) (sender : Address) (c : Uint256) (asset : Address)
    (amount : ℕ) : Prop where
  fresh : (w.manager.assetFunding c asset).registered = false
  allowance : amount ≤ (w.tokens asset).allowance sender d.here
  balance : amount ≤ (w.tokens asset).balanceOf sender
  covered : w.manager.totalOutstanding asset ≤ (w.tokens asset).balanceOf d.here

/-- Funding one asset leaves every other one as it is. -/
theorem Covers.of_funded {x : Address} {n : ℕ} (h : Covers d w sender c x n)
    (hf : Funded d w w' sender c asset amount) (hx : x ≠ asset) : Covers d w' sender c x n := by
  have htokens : w'.tokens x = w.tokens x := (Ledger.transferFrom_ok hf.paid).2.2.2.others x hx
  refine ⟨?_,?_,?_,?_⟩
  · rw [hf.updated.assetFunding]
    simpa [Mapping.set₂_apply,hx] using h.fresh
  · rw [htokens]
    exact h.allowance
  · rw [htokens]
    exact h.balance
  · rw [htokens,hf.updated.totalOutstanding,Mapping.set_other _ hx]
    exact h.covered

theorem fundAsset_ne_zero (h : fundAsset d sender c w asset amount = .ok w') : asset ≠ 0 := by
  simp only [fundAsset,bind_eq_ok,revertIf_eq_ok,exists_const] at h
  exact h.1

/-- What the loop over the assets has checked of each of them. -/
theorem fundAssets_ok {rest : List (Address × ℕ)} (h : fundAssets d sender c rest w = .ok w') :
    (∀ x ∈ rest, x.1 ≠ 0 ∧ 0 < x.2 ∧ (w.manager.assetFunding c x.1).registered = false) ∧
      (rest.map Prod.fst).Nodup := by
  induction rest generalizing w with
  | nil => simp
  | cons x rest ih =>
    simp only [fundAssets,bind_eq_ok] at h
    obtain ⟨u,hu,h⟩ := h
    have hf := fundAsset_ok hu
    obtain ⟨hall,hnodup⟩ := ih h
    have hother : ∀ y ∈ rest, y.1 ≠ x.1 := by
      intro y hy heq
      have hregistered := (hall y hy).2.2
      rw [hf.updated.assetFunding,heq] at hregistered
      simp [Mapping.set₂_apply] at hregistered
    refine ⟨List.forall_mem_cons.2 ⟨⟨fundAsset_ne_zero hu,hf.amount_pos,hf.fresh⟩,?_⟩,?_⟩
    · intro y hy
      have hfresh := (hall y hy).2.2
      rw [hf.updated.assetFunding] at hfresh
      exact ⟨(hall y hy).1,(hall y hy).2.1,
        by simpa [Mapping.set₂_apply,hother y hy] using hfresh⟩
    · rw [List.map_cons,List.nodup_cons]
      refine ⟨fun hmem => ?_,hnodup⟩
      obtain ⟨y,hy,heq⟩ := List.mem_map.1 hmem
      exact hother y hy heq

theorem fundAssets_succeeds {rest : List (Address × ℕ)} (h0 : d.here ≠ 0) (hs : sender ≠ 0)
    (hne : sender ≠ d.here) (hcovers : ∀ x ∈ rest, Covers d w sender c x.1 x.2)
    (hpos : ∀ x ∈ rest, x.1 ≠ 0 ∧ 0 < x.2) (hnodup : (rest.map Prod.fst).Nodup) :
    ∃ w', fundAssets d sender c rest w = .ok w' := by
  induction rest generalizing w with
  | nil => exact ⟨w,rfl⟩
  | cons x rest ih =>
    rw [List.forall_mem_cons] at hcovers hpos
    rw [List.map_cons,List.nodup_cons] at hnodup
    have hx := hcovers.1
    obtain ⟨u,hu⟩ := Coordinator.fundAsset_succeeds hpos.1.1 hpos.1.2 hx.fresh h0 hs hne
      hx.allowance hx.balance hx.covered
    have hrest : ∀ y ∈ rest, Covers d u sender c y.1 y.2 := fun y hy =>
      (hcovers.2 y hy).of_funded (fundAsset_ok hu) fun heq =>
        hnodup.1 (heq ▸ List.mem_map_of_mem hy)
    obtain ⟨w',hw'⟩ := ih hrest hpos.2 hnodup.2
    exact ⟨w',bind_eq_ok.2 ⟨u,hu,hw'⟩⟩

/-- A publication that the manager accepts of a sender who can pay for it. -/
structure Acceptable (timestamp : ℕ) (p : Publication) : Prop where
  merkleRoot : p.merkleRoot ≠ 0
  allocationsContentHash : p.allocationsContentHash ≠ 0
  manifestEnvelopeHash : p.manifestEnvelopeHash ≠ 0
  claimStart : timestamp < p.claimStart
  claimDeadline : p.claimStart < p.claimDeadline
  assets : p.assets ≠ []
  lengths : p.assets.length = p.fundedAmounts.length
  funding : ∀ x ∈ p.assets.zip p.fundedAmounts, x.1 ≠ 0 ∧ 0 < x.2
  distinct : p.assets.Nodup

theorem publishCycle_succeeds_iff {p : Publication} (h0 : d.here ≠ 0) (hs : sender ≠ 0)
    (hne : sender ≠ d.here) (howner : w.manager.ownership.owner = sender)
    (hunpublished : (w.manager.cycles p.cycleId).published = false)
    (hcovers : ∀ x ∈ p.assets.zip p.fundedAmounts, Covers d w sender p.cycleId x.1 x.2) :
    (∃ w', publishCycle d w sender p = .ok w') ↔ Acceptable w.timestamp p := by
  have hfst (hlen : p.assets.length = p.fundedAmounts.length) :
      (p.assets.zip p.fundedAmounts).map Prod.fst = p.assets :=
    List.map_fst_zip (le_of_eq hlen)
  constructor
  · rintro ⟨w',h⟩
    have hp := publishCycle_ok h
    obtain ⟨hall,hnodup⟩ := fundAssets_ok hp.funded
    rw [hfst hp.lengths] at hnodup
    simp only [publishCycle,bind_eq_ok,mapError_eq_ok,revertIf_eq_ok,exists_const,not_or] at h
    obtain ⟨_,-,-,-,hhashes,-⟩ := h
    exact ⟨hp.root_ne_zero,hhashes.1,hhashes.2,hp.claimStart_gt,hp.claimDeadline_gt,
      hp.assets_ne_nil,hp.lengths,fun x hx => ⟨(hall x hx).1,(hall x hx).2.1⟩,hnodup⟩
  · intro h
    have hcovers' : ∀ x ∈ p.assets.zip p.fundedAmounts,
        Covers d (w.opened p) sender p.cycleId x.1 x.2 := fun x hx =>
      ⟨(hcovers x hx).fresh,(hcovers x hx).allowance,(hcovers x hx).balance,(hcovers x hx).covered⟩
    obtain ⟨w',hw'⟩ := fundAssets_succeeds h0 hs hne hcovers' h.funding
      (by rw [hfst h.lengths]; exact h.distinct)
    refine ⟨w',?_⟩
    simp only [publishCycle,bind_eq_ok,mapError_eq_ok,Ownable.checkOwner_eq_ok,revertIf_eq_ok,
      exists_const]
    exact ⟨howner,by simp [hunpublished],h.merkleRoot,
      not_or.2 ⟨h.allocationsContentHash,h.manifestEnvelopeHash⟩,Nat.not_le.2 h.claimStart,
      Nat.not_le.2 h.claimDeadline,by simpa using h.assets,not_not.2 h.lengths,hw'⟩

end ClaimManager
end BpsProtocol
