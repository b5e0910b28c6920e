import BpsProtocol.ClaimManagerSolvency

/-! A cycle that is claimed by its roster.
A roster lists one share for each claimant, with its proof, and its shares are covered by
the funding.  While every claim on the cycle follows the roster, no share can be lost to
another one: what is paid so far and any unpaid share fit the funding. -/
namespace BpsProtocol
namespace ClaimManager

open Checked Mapping Erc20 MerkleProof

structure Share where
  claimant : Address
  amount : Uint256
  proof : List Bytes32
  deriving DecidableEq

def Share.entry (s : Share) : Address × ℕ := (s.claimant,s.amount.val)

def rosterTotal (shares : List Share) : ℕ := (shares.map (fun s => s.amount.val)).sum

/-- The shares of one cycle and asset: one for each claimant, provable, and funded. -/
structure Roster (d : Deployment) (root : Bytes32) (c : Uint256) (asset : Address) (funded : ℕ)
    (shares : List Share) : Prop where
  distinct : (shares.map Share.claimant).Nodup
  positive : ∀ s ∈ shares, s.amount ≠ 0
  verified : ∀ s ∈ shares,
    verify d.keccak256 s.proof root (leafFor d c s.claimant asset s.amount) = true
  covered : rosterTotal shares ≤ funded

/-- Whatever the transaction claims of the cycle's asset is a share of its sender. -/
def Follows (c : Uint256) (asset : Address) (shares : List Share) : Tx → Prop
  | .claim sender c' a amount proof => c' = c → a = asset → ⟨sender,amount,proof⟩ ∈ shares
  | .claimBatch sender c' requests => c' = c → ∀ r ∈ requests, r.asset = asset →
      ⟨sender,r.amount,r.proof⟩ ∈ shares
  | _ => True

/-- The cycle is published and funded, what was claimed of it are shares, and it is not
recovered before its deadline. -/
structure Live (d : Deployment) (cycle : Cycle) (c : Uint256) (asset : Address) (funded : ℕ)
    (shares : List Share) (w : World) : Prop extends Solvent d w where
  cycle_eq : w.manager.cycles c = cycle
  is_published : cycle.published = true
  registered : (w.manager.assetFunding c asset).registered = true
  funded_eq : (w.manager.assetFunding c asset).funded = funded
  listed : ∀ e ∈ claims w.manager.events c asset, ∃ s ∈ shares, s.entry = e
  expired : (w.manager.assetFunding c asset).recoveryClosed = true →
    cycle.claimDeadline < w.timestamp

variable {d : Deployment} {cycle : Cycle} {c x : Uint256} {asset a : Address} {funded : ℕ}
  {shares : List Share} {w w' : World} {sender : Address}

/-- Overwriting one entry keeps the cycle live, if the entry is another's or keeps its
funding, and if a new claim is a share. -/
theorem Live.of_updated (h : Live d cycle c asset funded shares w) (hs : Solvent d w')
    {f : AssetFunding} {total : ℕ} {event : Event}
    (hu : Updated w.manager w'.manager x a f total event) (ht : w'.timestamp = w.timestamp)
    (hf : x = c → a = asset → f.registered = true ∧ f.funded = funded ∧
      (f.recoveryClosed = true → cycle.claimDeadline < w.timestamp))
    (hlisted : ∀ e ∈ claims (event::w.manager.events) c asset, ∃ s ∈ shares, s.entry = e) :
    Live d cycle c asset funded shares w' := by
  have hentry : w'.manager.assetFunding c asset = f ∧ x = c ∧ a = asset ∨
      w'.manager.assetFunding c asset = w.manager.assetFunding c asset := by
    rw [hu.assetFunding,set₂_apply]
    split
    · rename_i hk
      exact Or.inl ⟨rfl,hk.1.symm,hk.2.symm⟩
    · exact Or.inr rfl
  refine ⟨hs,by rw [hu.cycles]; exact h.cycle_eq,h.is_published,?_,?_,by rw [hu.events]; exact hlisted,?_⟩
  · rcases hentry with ⟨he,hx,ha⟩ | he
    · rw [he]
      exact (hf hx ha).1
    · rw [he]
      exact h.registered
  · rcases hentry with ⟨he,hx,ha⟩ | he
    · rw [he]
      exact (hf hx ha).2.1
    · rw [he]
      exact h.funded_eq
  · rw [ht]
    rcases hentry with ⟨he,hx,ha⟩ | he
    · rw [he]
      exact (hf hx ha).2.2
    · rw [he]
      exact h.expired

theorem Claimed.live {amount : Uint256} {proof : List Bytes32}
    (h : Live d cycle c asset funded shares w) (hc : Claimed d w w' x sender a amount proof)
    (hfollows : x = c → a = asset → ⟨sender,amount,proof⟩ ∈ shares) :
    Live d cycle c asset funded shares w' := by
  refine h.of_updated (hc.solvent h.toSolvent) hc.updated hc.timestamp ?_ ?_
  · rintro rfl rfl
    exact ⟨h.registered,h.funded_eq,h.expired⟩
  · intro e he
    rw [claims_claimed] at he
    split at he
    · rename_i hk
      rcases List.mem_cons.1 he with rfl | he
      · exact ⟨⟨sender,amount,proof⟩,hfollows hk.1 hk.2,rfl⟩
      · exact h.listed e he
    · exact h.listed e he

theorem Recovered.live (h : Live d cycle c asset funded shares w)
    (hr : Recovered d w w' x a) : Live d cycle c asset funded shares w' := by
  refine h.of_updated (hr.solvent h.toSolvent) hr.updated hr.timestamp ?_ h.listed
  rintro rfl rfl
  have hexpired := hr.expired
  rw [h.cycle_eq] at hexpired
  exact ⟨h.registered,h.funded_eq,fun _ => hexpired⟩

/-- Another cycle is funded with its own entries. -/
theorem Funded.live {amount : ℕ} (h : Live d cycle c asset funded shares w) (hne : x ≠ c)
    (hp : (w.manager.cycles x).published = true) (hf : Funded d w w' sender x a amount) :
    Live d cycle c asset funded shares w' :=
  h.of_updated (hf.solvent h.toSolvent hp) hf.updated hf.timestamp (fun hx => absurd hx hne)
    h.listed

theorem Published.live {p : Publication} (h : Live d cycle c asset funded shares w)
    (hp : Published d w w' sender p) : Live d cycle c asset funded shares w' := by
  have hne : p.cycleId ≠ c := by
    intro heq
    have hun := hp.unpublished
    rw [heq,h.cycle_eq,h.is_published] at hun
    exact Bool.noConfusion hun
  have hopened : Live d cycle c asset funded shares (w.opened p) := by
    refine ⟨h.toSolvent.opened,?_,h.is_published,h.registered,h.funded_eq,h.listed,h.expired⟩
    simp [World.opened,set_other _ hne.symm,h.cycle_eq]
  have hinv := fundAssets_preserves
    (I := fun u => Live d cycle c asset funded shares u ∧
      (u.manager.cycles p.cycleId).published = true)
    (fun u u' a amount hu hf => ⟨hf.live hu.1 hne hu.2,by rw [hf.updated.cycles]; exact hu.2⟩)
    ⟨hopened,opened_published w p⟩ hp.funded
  exact hinv.1

theorem Live.claimAll {requests : List ClaimRequest} (h : Live d cycle c asset funded shares w)
    (hfollows : x = c → ∀ r ∈ requests, r.asset = asset → ⟨sender,r.amount,r.proof⟩ ∈ shares)
    (hok : ClaimManager.claimAll d sender x requests w = .ok w') :
    Live d cycle c asset funded shares w' := by
  induction requests generalizing w with
  | nil =>
    cases hok
    exact h
  | cons r rest ih =>
    simp only [ClaimManager.claimAll,bind_eq_ok] at hok
    obtain ⟨u,hu,hok⟩ := hok
    have hlive := (claimOne_ok hu).live h (fun hx ha => hfollows hx r (by simp) ha)
    exact ih hlive (fun hx r' hr' => hfollows hx r' (List.mem_cons_of_mem _ hr')) hok

/-- A transaction whose claims follow the roster keeps the cycle live. -/
theorem exec_live {tx : Tx} (h : Live d cycle c asset funded shares w)
    (hfollows : Follows c asset shares tx) (hx : exec d w tx = .ok w') :
    Live d cycle c asset funded shares w' := by
  have hs := exec_solvent h.toSolvent hx
  rcases exec_cases hx with ⟨seconds,rfl,rfl⟩ | ⟨_,p,rfl,hp⟩ | ⟨_,_,_,_,_,rfl,hc⟩ |
    ⟨_,_,_,rfl,hb⟩ | ⟨_,_,_,rfl,hr⟩ | ⟨_,_,_,rfl,-,rfl⟩ | ⟨_,_,_,rfl,-,-,rfl⟩
  · exact ⟨hs,h.cycle_eq,h.is_published,h.registered,h.funded_eq,h.listed,
      fun hc => (h.expired hc).trans_le (Nat.le_add_right _ _)⟩
  · exact hp.live h
  · exact hc.live h hfollows
  · exact h.claimAll hfollows hb
  · exact hr.live h
  · exact ⟨hs,h.cycle_eq,h.is_published,h.registered,h.funded_eq,h.listed,h.expired⟩
  · exact ⟨hs,h.cycle_eq,h.is_published,h.registered,h.funded_eq,h.listed,h.expired⟩

theorem Live.run (h : Live d cycle c asset funded shares w) {txs : List Tx}
    (hfollows : ∀ tx ∈ txs, Follows c asset shares tx) :
    Live d cycle c asset funded shares (Machine.run (exec d) w txs) := by
  induction txs generalizing w with
  | nil => exact h
  | cons tx txs ih =>
    rw [Machine.run_cons]
    refine ih ?_ (fun t ht => hfollows t (List.mem_cons_of_mem _ ht))
    unfold Machine.commit
    split
    · exact exec_live h (hfollows tx (by simp)) ‹_›
    · exact h

/-- Nothing was claimed of a cycle before it is published. -/
theorem Solvent.claims_unpublished (hs : Solvent d w)
    (hun : (w.manager.cycles c).published = false) : claims w.manager.events c asset = [] := by
  apply List.eq_nil_iff_forall_not_mem.2
  intro e he
  have hclaimed := (hs.claimants c asset e.1).1 (List.mem_map_of_mem he)
  have hpublished := hs.published c asset (hs.claimed_registered c e.1 asset hclaimed)
  rw [hun] at hpublished
  exact Bool.noConfusion hpublished

/-- A cycle of one asset is live from its publication on. -/
theorem Published.opens {p : Publication} (hs : Solvent d w) (hp : Published d w w' sender p)
    (hassets : p.assets = [asset]) (hamounts : p.fundedAmounts = [funded]) :
    Live d p.cycle p.cycleId asset funded shares w' := by
  have hfunded := hp.funded
  rw [hassets,hamounts] at hfunded
  simp only [List.zip_cons_cons,List.zip_nil_right,fundAssets,bind_eq_ok] at hfunded
  obtain ⟨u,hu,hend⟩ := hfunded
  obtain rfl := Except.ok.inj hend
  have hf := fundAsset_ok hu
  have hunset := (hs.sound p.cycleId asset).unset hf.fresh
  refine ⟨hp.solvent hs,?_,rfl,?_,?_,?_,?_⟩
  · rw [hf.updated.cycles]
    simp [World.opened]
  · simp [hf.updated.assetFunding,set₂_apply]
  · simp [hf.updated.assetFunding,set₂_apply]
  · intro e he
    rw [hf.updated.events] at he
    have hnone : claims w.manager.events p.cycleId asset = [] := hs.claims_unpublished hp.unpublished
    exact absurd (show e ∈ claims w.manager.events p.cycleId asset from he) (by simp [hnone])
  · intro hclosed
    rw [hf.updated.assetFunding] at hclosed
    simp [World.opened,hunset,AssetFunding.unset,set₂_apply] at hclosed

section Paying

variable (h : Live d cycle c asset funded shares w)
  (hr : Roster d cycle.merkleRoot c asset funded shares)
include h

/-- The payments of a cycle so far. -/
def paidTotal (w : World) (c : Uint256) (asset : Address) : ℕ :=
  ((claims w.manager.events c asset).map Prod.snd).sum

theorem Live.claimed_eq : (w.manager.assetFunding c asset).claimed = paidTotal w c asset :=
  h.claimedSum c asset

theorem Live.claims_nodup : (claims w.manager.events c asset).Nodup :=
  List.Nodup.of_map Prod.fst (h.claimedOnce c asset)

include hr

/-- What was claimed and a share of someone who did not claim fit the roster. -/
theorem Live.paidTotal_add_le {s : Share} (hs : s ∈ shares)
    (hun : w.manager.claimed c s.claimant asset = false) :
    paidTotal w c asset+s.amount.val ≤ funded := by
  have hfresh : s.entry ∉ claims w.manager.events c asset := by
    intro hmem
    have hclaimed := (h.claimants c asset s.claimant).1 (List.mem_map_of_mem hmem)
    rw [hun] at hclaimed
    exact Bool.noConfusion hclaimed
  have hsub : s.entry::claims w.manager.events c asset ⊆ shares.map Share.entry := by
    intro e he
    rcases List.mem_cons.1 he with rfl | he
    · exact List.mem_map_of_mem hs
    · obtain ⟨s',hs',rfl⟩ := h.listed e he
      exact List.mem_map_of_mem hs'
  obtain ⟨l,hperm,hsublist⟩ := (List.nodup_cons.2 ⟨hfresh,h.claims_nodup⟩).subperm hsub
  have hle := (hsublist.map Prod.snd).sum_le_sum (fun _ _ => Nat.zero_le _)
  rw [(hperm.map Prod.snd).sum_eq,List.map_map] at hle
  have hcovered := hr.covered
  have htotal : ((shares.map (Prod.snd ∘ Share.entry)).sum) = rosterTotal shares := rfl
  rw [htotal,List.map_cons,List.sum_cons] at hle
  have hamount : s.entry.2 = s.amount.val := rfl
  unfold paidTotal
  omega

/-- Once every claimant claimed, the roster is paid exactly. -/
theorem Live.paidTotal_eq (hall : ∀ s ∈ shares, w.manager.claimed c s.claimant asset = true) :
    paidTotal w c asset = rosterTotal shares := by
  have hnodup : (shares.map Share.entry).Nodup := by
    refine List.Nodup.of_map Prod.fst ?_
    rw [List.map_map]
    exact hr.distinct
  have hperm : (claims w.manager.events c asset).Perm (shares.map Share.entry) := by
    rw [List.perm_ext_iff_of_nodup h.claims_nodup hnodup]
    intro e
    constructor
    · intro he
      obtain ⟨s,hs,rfl⟩ := h.listed e he
      exact List.mem_map_of_mem hs
    · intro he
      obtain ⟨s,hs,rfl⟩ := List.mem_map.1 he
      obtain ⟨e,he,hfst⟩ := List.mem_map.1 ((h.claimants c asset s.claimant).2 (hall s hs))
      obtain ⟨s',hs',rfl⟩ := h.listed e he
      rw [← List.inj_on_of_nodup_map hr.distinct hs' hs hfst]
      exact he
  rw [paidTotal,(hperm.map Prod.snd).sum_eq,List.map_map]
  rfl

/-- A share that was not claimed is paid inside the window. -/
theorem Live.claimOne_succeeds {s : Share} (hs : s ∈ shares) (hclaimant : s.claimant ≠ 0)
    (hstart : cycle.claimStart ≤ w.timestamp) (hend : w.timestamp ≤ cycle.claimDeadline)
    (hun : w.manager.claimed c s.claimant asset = false) :
    ∃ w', claimOne d w c s.claimant asset s.amount s.proof = .ok w' ∧
      w.tokens.transfer asset d.here s.claimant s.amount.val = .ok w'.tokens := by
  have hsound := h.sound c asset
  have hfit := h.paidTotal_add_le hr hs hun
  have hclaimed := h.claimed_eq
  have hfunded := h.funded_eq
  have hlt := hsound.funded_lt
  have hopen : (w.manager.assetFunding c asset).recoveryClosed = false := by
    cases hc : (w.manager.assetFunding c asset).recoveryClosed
    · rfl
    · exact absurd (h.expired hc) (by omega)
  have hrecovered := hsound.unrecovered hopen
  have houtstanding := h.outstanding_le c asset
  unfold AssetFunding.outstanding at houtstanding
  have hbalance := h.covered asset
  obtain ⟨l,hl⟩ : ∃ l, w.tokens.transfer asset d.here s.claimant s.amount.val = .ok l :=
    Ledger.transfer_succeeds h.here_ne_zero hclaimant (by omega)
  have hcycle := h.cycle_eq
  have hpub := h.is_published
  have hverified := hr.verified s hs
  have hok : ∃ w', claimOne d w c s.claimant asset s.amount s.proof = .ok w' := by
    simp only [claimOne,bind_eq_ok,revertIf_eq_ok,mapError_eq_ok,sub_eq_ok,add_eq_ok,exists_const,
      pure_eq_ok]
    rw [hcycle]
    exact ⟨_,hr.positive s hs,by simp [hpub],by simp [h.registered],by omega,by omega,
      by simp [hun],by simp [hverified],_,⟨by omega,rfl⟩,_,⟨by omega,rfl⟩,by omega,_,
      ⟨by omega,rfl⟩,_,⟨by omega,rfl⟩,_,hl,rfl⟩
  obtain ⟨w',hw'⟩ := hok
  exact ⟨w',hw',(claimOne_ok hw').paid⟩

/-- A batch of first claims of one claimant is the batch of its one share. -/
theorem Live.claimBatch_succeeds {s : Share} (hs : s ∈ shares) (hclaimant : s.claimant ≠ 0)
    (hstart : cycle.claimStart ≤ w.timestamp) (hend : w.timestamp ≤ cycle.claimDeadline)
    (hun : w.manager.claimed c s.claimant asset = false) {requests : List ClaimRequest}
    (hne : requests ≠ []) (hnodup : requests.Nodup)
    (hall : ∀ r ∈ requests, r.asset = asset ∧ ⟨s.claimant,r.amount,r.proof⟩ ∈ shares) :
    ∃ w', claimBatch d w s.claimant c requests = .ok w' := by
  have hown : ∀ r ∈ requests, r = ⟨asset,s.amount,s.proof⟩ := by
    intro r hmem
    obtain ⟨hasset,hshare⟩ := hall r hmem
    have heq := List.inj_on_of_nodup_map hr.distinct hshare hs rfl
    rw [← heq,← hasset]
  obtain ⟨w',hw',-⟩ := h.claimOne_succeeds hr hs hclaimant hstart hend hun
  obtain ⟨r,rest,rfl⟩ := List.exists_cons_of_ne_nil hne
  have hrest : rest = [] := by
    apply List.eq_nil_iff_forall_not_mem.2
    intro r' hr'
    have heq := (hown r (by simp)).trans (hown r' (List.mem_cons_of_mem _ hr')).symm
    exact (List.nodup_cons.1 hnodup).1 (heq ▸ hr')
  refine ⟨w',?_⟩
  rw [hrest,hown r (by simp)]
  simp [claimBatch,ClaimManager.claimAll,revertIf,hw',bind,Except.bind]

omit hr

/-- After the deadline the recovery sweeps what was not paid. -/
theorem Live.recoverExpired_sweeps (hrecipient : d.recoveryRecipient ≠ 0)
    (hend : cycle.claimDeadline < w.timestamp)
    (hopen : (w.manager.assetFunding c asset).recoveryClosed = false) :
    ∃ w', recoverExpired d w c asset = .ok w' ∧
      w'.manager.events = .expiredRecovered c asset d.recoveryRecipient
        (funded-paidTotal w c asset)::w.manager.events ∧
      w.tokens.transferPositive asset d.here d.recoveryRecipient
        (funded-paidTotal w c asset) = .ok w'.tokens := by
  have hsound := h.sound c asset
  have hcovered := hsound.covered
  have hclaimed := h.claimed_eq
  have hfunded := h.funded_eq
  have hrecovered := hsound.unrecovered hopen
  have hlt := hsound.funded_lt
  have houtstanding := h.outstanding_le c asset
  unfold AssetFunding.outstanding at houtstanding
  have hbalance := h.covered asset
  have hamount : (w.manager.assetFunding c asset).funded-
      (w.manager.assetFunding c asset).claimed-(w.manager.assetFunding c asset).recovered =
        funded-paidTotal w c asset := by omega
  have hpay : ∃ l, w.tokens.transferPositive asset d.here d.recoveryRecipient
      (funded-paidTotal w c asset) = .ok l := by
    unfold Ledger.transferPositive
    split
    · exact Ledger.transfer_succeeds h.here_ne_zero hrecipient (by omega)
    · exact ⟨_,rfl⟩
  obtain ⟨l,hl⟩ := hpay
  have hcycle := h.cycle_eq
  have hpub := h.is_published
  have hok : ∃ w', recoverExpired d w c asset = .ok w' := by
    rw [← hamount] at hl
    simp only [recoverExpired,bind_eq_ok,revertIf_eq_ok,mapError_eq_ok,sub_eq_ok,add_eq_ok,
      exists_const,pure_eq_ok]
    rw [hcycle]
    exact ⟨_,by simp [hpub],by simp [h.registered],by omega,by simp [hopen],_,⟨by omega,rfl⟩,_,
      ⟨by omega,rfl⟩,_,⟨by omega,rfl⟩,_,⟨by omega,rfl⟩,_,hl,rfl⟩
  obtain ⟨w',hw'⟩ := hok
  have hswept := recoverExpired_ok hw'
  have howed : (w.manager.assetFunding c asset).outstanding = funded-paidTotal w c asset := hamount
  refine ⟨w',hw',?_,?_⟩
  · rw [hswept.updated.events,howed]
  · have hpaid := hswept.paid
    rw [howed] at hpaid
    unfold Ledger.transferPositive
    rcases hpaid with ⟨hpos,hpaid⟩ | ⟨hzero,hpaid⟩
    · rw [if_pos hpos,hpaid]
    · rw [if_neg (by omega),hpaid]

end Paying

end ClaimManager
end BpsProtocol
