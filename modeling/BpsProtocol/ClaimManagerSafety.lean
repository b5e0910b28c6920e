import BpsProtocol.ClaimManagerSolvency

/-! What no run of the claim manager can do: pay for a recovered pair, or underflow. -/
namespace BpsProtocol
namespace ClaimManager

open Checked Mapping Erc20 MerkleProof

variable {d : Deployment} {w w' : World} {sender claimant asset : Address} {c : Uint256}
  {amount : ℕ}

/-- A pair whose recovery is closed stays closed and is paid for no more. -/
def Frozen (m m' : Storage) : Prop :=
  ∀ c asset, (m.assetFunding c asset).recoveryClosed = true →
    (m'.assetFunding c asset).recoveryClosed = true ∧
    claims m'.events c asset = claims m.events c asset ∧
    recoveries m'.events c asset = recoveries m.events c asset

theorem Frozen.refl (m : Storage) : Frozen m m := fun _ _ h => ⟨h,rfl,rfl⟩

theorem Frozen.trans {m m' m'' : Storage} (h : Frozen m m') (h' : Frozen m' m'') :
    Frozen m m'' := by
  intro c asset hc
  obtain ⟨h1,h2,h3⟩ := h c asset hc
  obtain ⟨h1',h2',h3'⟩ := h' c asset h1
  exact ⟨h1',h2'.trans h2,h3'.trans h3⟩

/-- An update of an open pair, announced by an event about that pair only. -/
theorem Updated.frozen {m m' : Storage} {f : AssetFunding} {total : ℕ} {event : Event}
    (h : Updated m m' c asset f total event)
    (hopen : (m.assetFunding c asset).recoveryClosed = false)
    (hevent : ∀ x a, ¬(c = x ∧ asset = a) →
      claims (event::m.events) x a = claims m.events x a ∧
      recoveries (event::m.events) x a = recoveries m.events x a) : Frozen m m' := by
  intro x a hx
  have hk : ¬(c = x ∧ asset = a) := by
    rintro ⟨rfl,rfl⟩
    simp [hopen] at hx
  have hk' : ¬(x = c ∧ a = asset) := fun e => hk ⟨e.1.symm,e.2.symm⟩
  rw [h.assetFunding,h.events,set₂_apply,if_neg hk']
  exact ⟨hx,hevent x a hk⟩

theorem Funded.frozen (hs : Solvent d w) (h : Funded d w w' sender c asset amount) :
    Frozen w.manager w'.manager := by
  have hunset := (hs.sound c asset).unset h.fresh
  exact h.updated.frozen (by simp [hunset,AssetFunding.unset]) (fun _ _ _ => ⟨rfl,rfl⟩)

theorem Claimed.frozen {amount : Uint256} {proof : List Bytes32} (hs : Solvent d w)
    (h : Claimed d w w' c claimant asset amount proof) : Frozen w.manager w'.manager := by
  have hopen : (w.manager.assetFunding c asset).recoveryClosed = false := by
    cases hr : (w.manager.assetFunding c asset).recoveryClosed
    · rfl
    · -- a closed pair owes nothing, so it covers no positive amount
      have hfull := (hs.sound c asset).closed hr
      have hcov := h.covered
      have hpos := h.amount_pos
      unfold AssetFunding.outstanding at hcov
      omega
  refine h.updated.frozen hopen fun x a hk => ⟨?_,rfl⟩
  rw [claims_claimed,if_neg hk]

theorem Recovered.frozen (h : Recovered d w w' c asset) : Frozen w.manager w'.manager := by
  refine h.updated.frozen h.open_ fun x a hk => ⟨rfl,?_⟩
  simp [recoveries,hk]

theorem exec_frozen {tx : Tx} (hs : Solvent d w) (h : exec d w tx = .ok w') :
    Frozen w.manager w'.manager := by
  rcases exec_cases h with ⟨_,-,rfl⟩ | ⟨sender,p,-,hp⟩ | ⟨_,_,_,_,_,-,hc⟩ | ⟨_,_,_,-,hb⟩ |
    ⟨_,_,_,-,hr⟩ | ⟨_,_,_,-,-,rfl⟩ | ⟨_,_,_,-,-,-,rfl⟩
  · exact Frozen.refl _
  · have hinv := fundAssets_preserves
      (I := fun u => (Solvent d u ∧ (u.manager.cycles p.cycleId).published = true) ∧
        Frozen w.manager u.manager)
      (fun u u' asset amount hu hf => ⟨⟨hf.solvent hu.1.1 hu.1.2,
        by rw [hf.updated.cycles]; exact hu.1.2⟩,hu.2.trans (hf.frozen hu.1.1)⟩)
      ⟨⟨hs.opened,opened_published w p⟩,fun _ _ hx => ⟨hx,rfl,rfl⟩⟩ hp.funded
    exact hinv.2
  · exact hc.frozen hs
  · have hinv := claimAll_preserves
      (I := fun u => Solvent d u ∧ Frozen w.manager u.manager)
      (fun u u' asset amount proof hu hc => ⟨hc.solvent hu.1,hu.2.trans (hc.frozen hu.1)⟩)
      ⟨hs,Frozen.refl _⟩ hb
    exact hinv.2
  · exact hr.frozen
  · exact Frozen.refl _
  · exact Frozen.refl _

theorem Solvent.run_frozen (hs : Solvent d w) (txs : List Tx) :
    Frozen w.manager (Machine.run (exec d) w txs).manager :=
  Machine.run_related (R := fun a b => Frozen a.manager b.manager)
    (fun a => Frozen.refl a.manager) (fun _ _ _ => Frozen.trans)
    (fun _ _ _ ha hx => ⟨exec_solvent ha hx,exec_frozen ha hx⟩) hs txs

/-- Where the invariant holds, funding cannot overflow its counter. -/
theorem Solvent.fundAsset_ne_panic (hs : Solvent d w) :
    fundAsset d sender c w asset amount ≠ .error .panic := by
  intro h
  simp only [fundAsset,bind_eq_error,revertIf_eq_error,sub_eq_error,add_eq_error,mapError_eq_error,
    pure_eq_error,revertIf_eq_ok,sub_eq_ok,mapError_eq_ok,exists_const,reduceCtorEq,and_false,
    and_true,false_or,or_false,exists_false,and_assoc,exists_and_left,exists_eq_left'] at h
  obtain ⟨-,hamount,-,l,hl,h⟩ := h
  obtain ⟨-,hallow,-,hpaid⟩ := Ledger.transferFrom_ok hl
  have hsender : d.here ≠ sender := by
    intro heq
    have h0 := hs.closed asset d.here
    rw [← heq] at hallow
    omega
  have hb : (l asset).balanceOf d.here = (w.tokens asset).balanceOf d.here+amount := by
    simpa [hsender] using hpaid.balance asset d.here
  have hc := hs.covered asset
  have hlt := (l asset).balanceOf_lt d.here
  omega

theorem Solvent.fundAssets_ne_panic {rest : List (Address × ℕ)} (hs : Solvent d w)
    (hp : (w.manager.cycles c).published = true) :
    fundAssets d sender c rest w ≠ .error .panic := by
  induction rest generalizing w with
  | nil => simp [fundAssets]
  | cons x rest ih =>
    refine bind_ne_error hs.fundAsset_ne_panic fun u hu => ?_
    have hf := fundAsset_ok hu
    exact ih (hf.solvent hs hp) (by rw [hf.updated.cycles]; exact hp)

/-- What the arithmetic of a claim and of a recovery rests on. -/
theorem Solvent.entry_bounds (hs : Solvent d w) (c : Uint256) (asset : Address) :
    (w.manager.assetFunding c asset).claimed+(w.manager.assetFunding c asset).recovered ≤
      (w.manager.assetFunding c asset).funded ∧
    (w.manager.assetFunding c asset).funded < wordBound ∧
    (w.manager.assetFunding c asset).outstanding ≤ w.manager.totalOutstanding asset :=
  ⟨(hs.sound c asset).covered,(hs.sound c asset).funded_lt,hs.outstanding_le c asset⟩

/-- Where the invariant holds, a claim that passes the checks before it cannot underflow. -/
theorem Solvent.claimOne_ne_panic {amount : Uint256} {proof : List Bytes32} (hs : Solvent d w) :
    claimOne d w c claimant asset amount proof ≠ .error .panic := by
  have hbounds := hs.entry_bounds c asset
  rw [AssetFunding.outstanding] at hbounds
  intro h
  simp only [claimOne,bind_eq_error,revertIf_eq_error,sub_eq_error,add_eq_error,mapError_eq_error,
    pure_eq_error,revertIf_eq_ok,sub_eq_ok,add_eq_ok,mapError_eq_ok,exists_const,reduceCtorEq,
    and_false,and_true,false_or,or_false,exists_false,and_assoc,exists_and_left,exists_eq_left'] at h
  omega

theorem Solvent.claimAll_ne_panic {requests : List ClaimRequest} (hs : Solvent d w) :
    claimAll d sender c requests w ≠ .error .panic := by
  induction requests generalizing w with
  | nil => simp [claimAll]
  | cons r rest ih =>
    refine bind_ne_error hs.claimOne_ne_panic fun u hu => ?_
    exact ih ((claimOne_ok hu).solvent hs)

theorem Solvent.recoverExpired_ne_panic (hs : Solvent d w) :
    recoverExpired d w c asset ≠ .error .panic := by
  have hbounds := hs.entry_bounds c asset
  rw [AssetFunding.outstanding] at hbounds
  intro h
  simp only [recoverExpired,bind_eq_error,revertIf_eq_error,sub_eq_error,add_eq_error,
    mapError_eq_error,pure_eq_error,revertIf_eq_ok,sub_eq_ok,add_eq_ok,mapError_eq_ok,exists_const,
    reduceCtorEq,and_false,and_true,false_or,or_false,exists_false,and_assoc,exists_and_left,
    exists_eq_left'] at h
  omega

/-- No call in a solvent world ends in an arithmetic panic. -/
theorem Solvent.exec_ne_panic (hs : Solvent d w) (tx : Tx) : exec d w tx ≠ .error .panic := by
  cases tx with
  | elapse seconds => simp [exec]
  | publishCycle sender p =>
    intro h
    simp only [exec,publishCycle,bind_eq_error,revertIf_eq_error,mapError_eq_error,revertIf_eq_ok,
      mapError_eq_ok,exists_const,reduceCtorEq,and_false,false_or,exists_false] at h
    obtain ⟨_,-,-,-,-,-,-,-,-,h⟩ := h
    exact (hs.opened (p := p)).fundAssets_ne_panic (opened_published w p) h
  | claim sender c asset amount proof => exact hs.claimOne_ne_panic
  | claimBatch sender c requests =>
    intro h
    simp only [exec,claimBatch,bind_eq_error,revertIf_eq_error,reduceCtorEq,and_false,false_or] at h
    obtain ⟨_,-,hclaims⟩ := h
    exact hs.claimAll_ne_panic hclaims
  | recoverExpired sender c asset => exact hs.recoverExpired_ne_panic
  | ownership sender call =>
    simp [exec,map_eq_error,mapError_eq_error]
  | token asset call =>
    simp [exec,bind_eq_error,map_eq_error,revertIf_eq_error,mapError_eq_error]

theorem Solvent.remaining_eq (hs : Solvent d w) (c : Uint256) (asset : Address) :
    remaining w c asset = .ok (w.manager.assetFunding c asset).outstanding := by
  have hcov := (hs.sound c asset).covered
  simp only [remaining,bind_eq_ok,sub_eq_ok]
  exact ⟨_,⟨by omega,rfl⟩,by omega,rfl⟩

/-- What was recovered of each pair is the sum of the announced recoveries. -/
def RecoveredSum (m : Storage) : Prop :=
  ∀ c asset, (m.assetFunding c asset).recovered = ((recoveries m.events c asset).map Prod.snd).sum

theorem Updated.recoveredSum {m m' : Storage} {f : AssetFunding} {total : ℕ} {event : Event}
    (hm : RecoveredSum m) (h : Updated m m' c asset f total event)
    (hf : f.recovered = (m.assetFunding c asset).recovered+amount)
    (hevent : ∀ x a, ((recoveries (event::m.events) x a).map Prod.snd).sum =
      ((recoveries m.events x a).map Prod.snd).sum+if x = c ∧ a = asset then amount else 0) :
    RecoveredSum m' := by
  intro x a
  rw [h.assetFunding,h.events,set₂_apply,hevent,← hm x a]
  by_cases hk : x = c ∧ a = asset
  · rw [if_pos hk,if_pos hk,hf,hk.1,hk.2]
  · rw [if_neg hk,if_neg hk,Nat.add_zero]

theorem exec_recoveredSum {tx : Tx} (hm : RecoveredSum w.manager) (h : exec d w tx = .ok w') :
    RecoveredSum w'.manager := by
  rcases exec_cases h with ⟨_,-,rfl⟩ | ⟨_,p,-,hp⟩ | ⟨_,_,_,_,_,-,hc⟩ | ⟨_,_,_,-,hb⟩ |
    ⟨_,_,_,-,hr⟩ | ⟨_,_,_,-,-,rfl⟩ | ⟨_,_,_,-,-,-,rfl⟩
  · exact hm
  · have hopened : RecoveredSum (w.opened p).manager := fun c asset => hm c asset
    exact fundAssets_preserves (I := fun u => RecoveredSum u.manager)
      (fun _ _ _ _ hu hf => hf.updated.recoveredSum hu (Nat.add_zero _).symm (by simp [recoveries]))
      hopened hp.funded
  · exact hc.updated.recoveredSum hm (Nat.add_zero _).symm (by simp [recoveries])
  · exact claimAll_preserves (I := fun u => RecoveredSum u.manager)
      (fun _ _ _ _ _ hu hc =>
        hc.updated.recoveredSum hu (Nat.add_zero _).symm (by simp [recoveries])) hm hb
  · refine hr.updated.recoveredSum hm rfl fun x a => ?_
    simp only [recoveries,List.filterMap_cons]
    split
    · rename_i hnone
      split_ifs at hnone with hk
      rw [if_neg fun e => hk ⟨e.1.symm,e.2.symm⟩]
      rfl
    · rename_i hsome
      split_ifs at hsome with hk
      cases hsome
      rw [if_pos ⟨hk.1.symm,hk.2.symm⟩,List.map_cons,List.sum_cons,Nat.add_comm]
  · exact hm
  · exact hm

theorem Initial.recoveredSum (h : Initial d w) : RecoveredSum w.manager := by
  obtain ⟨o,ho⟩ := h.storage
  intro c asset
  rw [ho]
  rfl

theorem Reachable.recoveredSum (h : Reachable d w) : RecoveredSum w.manager :=
  Machine.Reachable.invariant (I := fun u => RecoveredSum u.manager)
    (fun _ hi => hi.recoveredSum) (fun _ _ _ hs hx => exec_recoveredSum hs hx) h

/-- In every reachable state the counters are the sums over the cycles, the manager holds
what it owes, every payment is announced, a triple is paid once, the claimed amounts add
up, a recovered pair is paid for no more, and no call can underflow. -/
theorem claimManager_solvent (h : Reachable d w) :
    (∀ asset, w.manager.totalOutstanding asset =
      ∑ c with (w.manager.assetFunding c asset).registered = true,
        ((w.manager.assetFunding c asset).funded-(w.manager.assetFunding c asset).claimed-
          (w.manager.assetFunding c asset).recovered)) ∧
    (∀ c asset, (w.manager.assetFunding c asset).claimed+
      (w.manager.assetFunding c asset).recovered ≤ (w.manager.assetFunding c asset).funded) ∧
    (∀ asset, w.manager.totalOutstanding asset ≤ (w.tokens asset).balanceOf d.here) ∧
    (∀ asset, (w.tokens asset).outflows d.here = payments w.manager.events asset) ∧
    (∀ c asset, ((claims w.manager.events c asset).map Prod.fst).Nodup) ∧
    (∀ c asset, (w.manager.assetFunding c asset).claimed =
      ((claims w.manager.events c asset).map Prod.snd).sum) ∧
    (∀ c asset, (w.manager.assetFunding c asset).recoveryClosed = true → ∀ txs,
      claims (Machine.run (exec d) w txs).manager.events c asset =
        claims w.manager.events c asset ∧
      recoveries (Machine.run (exec d) w txs).manager.events c asset =
        recoveries w.manager.events c asset) ∧
    (∀ tx, exec d w tx ≠ .error .panic) ∧
    ∀ c asset, remaining w c asset ≠ .error .panic := by
  have hs := h.solvent
  refine ⟨fun asset => ?_,fun c asset => (hs.sound c asset).covered,hs.covered,hs.paid,
    hs.claimedOnce,hs.claimedSum,fun c asset hc txs => (hs.run_frozen txs c asset hc).2,
    hs.exec_ne_panic,fun c asset => ?_⟩
  · rw [hs.outstanding asset,Finset.sum_filter]
    apply Finset.sum_congr rfl
    intro c _
    cases hr : (w.manager.assetFunding c asset).registered
    · simp [(hs.sound c asset).unset hr,AssetFunding.unset,AssetFunding.outstanding]
    · rfl
  · rw [hs.remaining_eq c asset]
    simp

/-- A manager for runs on fixed inputs. -/
def sample : Deployment := ⟨100,1,toyHash,7⟩

/-- One claim of `amount` by account `1`, its root the leaf itself. -/
def sampleCycle (cycleId amount : Uint256) : Publication :=
  ⟨cycleId,leafFor sample cycleId 1 50 amount,1,1,10,20,[50],[amount.val]⟩

/-- Two cycles of one asset; the first was claimed and the second recovered. -/
def twoCycles : World :=
  Machine.run (exec sample) ⟨0,fun _ => Token.empty,.deployed 9⟩
    [.token 50 (.mint 2 9 500),.token 50 (.approve 9 100 500),.publishCycle 9 (sampleCycle 1 200),
      .publishCycle 9 (sampleCycle 2 300),.elapse 10,.claim 1 1 50 200 [],.elapse 11,
      .recoverExpired 3 2 50]

theorem twoCycles_reachable : Reachable sample twoCycles :=
  (Machine.Reachable.of_init
    ⟨by decide,by decide,⟨9,rfl⟩,fun _ _ => rfl,fun _ => rfl⟩).run _

theorem twoCycles_recovered_not_paid :
    claims (Machine.run (exec sample) twoCycles [.claim 1 2 50 300 []]).manager.events 2 50 =
      claims twoCycles.manager.events 2 50 :=
  ((claimManager_solvent twoCycles_reachable).2.2.2.2.2.2.1 2 50 (by decide +kernel) _).1

end ClaimManager
end BpsProtocol
