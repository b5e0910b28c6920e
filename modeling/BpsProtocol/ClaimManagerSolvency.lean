import BpsProtocol.ClaimManager

/-! Solvency of the claim manager.
Funding, claiming and recovering each change the entry of one cycle and asset and move the
counter of that asset by the same difference, so no cycle spends the funds of another. -/
namespace BpsProtocol
namespace ClaimManager

open Checked Mapping Erc20 MerkleProof

/-- What one cycle still owes of one asset. -/
def AssetFunding.outstanding (f : AssetFunding) : ℕ := f.funded-f.claimed-f.recovered

/-- The nonzero payments of an asset that the events announce, newest first. -/
def payments (events : List Event) (asset : Address) : List (Address × ℕ) :=
  events.filterMap fun
    | .claimed _ claimant a amount =>
      if a = asset ∧ 0 < amount then some (claimant,amount) else none
    | .expiredRecovered _ a target amount =>
      if a = asset ∧ 0 < amount then some (target,amount) else none
    | _ => none

/-- The claims announced for one cycle and asset. -/
def claims (events : List Event) (cycleId : Uint256) (asset : Address) : List (Address × ℕ) :=
  events.filterMap fun
    | .claimed c claimant a amount =>
      if c = cycleId ∧ a = asset then some (claimant,amount) else none
    | _ => none

/-- The recoveries announced for one cycle and asset. -/
def recoveries (events : List Event) (cycleId : Uint256) (asset : Address) :
    List (Address × ℕ) :=
  events.filterMap fun
    | .expiredRecovered c a target amount =>
      if c = cycleId ∧ a = asset then some (target,amount) else none
    | _ => none

theorem payments_claimed (c : Uint256) (claimant asset a : Address) (amount : ℕ)
    (hpos : 0 < amount) (events : List Event) :
    payments (.claimed c claimant asset amount::events) a =
      if asset = a then (claimant,amount)::payments events a else payments events a := by
  simp only [payments,List.filterMap_cons,hpos,and_true]
  split <;> simp_all

theorem payments_recovered (c : Uint256) (asset target a : Address) (amount : ℕ)
    (events : List Event) :
    payments (.expiredRecovered c asset target amount::events) a =
      if asset = a ∧ 0 < amount then (target,amount)::payments events a
      else payments events a := by
  simp only [payments,List.filterMap_cons]
  split <;> simp_all

theorem claims_claimed (c x : Uint256) (claimant asset a : Address) (amount : ℕ)
    (events : List Event) :
    claims (.claimed c claimant asset amount::events) x a =
      if c = x ∧ asset = a then (claimant,amount)::claims events x a else claims events x a := by
  simp only [claims,List.filterMap_cons]
  split <;> simp_all

/-- One entry of the accounting, on its own. -/
structure AssetFunding.Sound (f : AssetFunding) : Prop where
  unset : f.registered = false → f = .unset
  covered : f.claimed+f.recovered ≤ f.funded
  funded_lt : f.funded < wordBound
  closed : f.recoveryClosed = true → f.claimed+f.recovered = f.funded
  unrecovered : f.recoveryClosed = false → f.recovered = 0

/-- The counters are the sums of the entries. -/
structure Balanced (m : Storage) : Prop where
  sound : ∀ c asset, (m.assetFunding c asset).Sound
  outstanding : ∀ asset, m.totalOutstanding asset = ∑ c, (m.assetFunding c asset).outstanding

theorem Balanced.outstanding_le {m : Storage} (h : Balanced m) (c : Uint256) (asset : Address) :
    (m.assetFunding c asset).outstanding ≤ m.totalOutstanding asset := by
  rw [h.outstanding asset]
  exact le_sum (fun c => (m.assetFunding c asset).outstanding) c

/-- One entry of the accounting, its counter and the event log move together. -/
structure Updated (m m' : Storage) (c : Uint256) (asset : Address) (f : AssetFunding) (total : ℕ)
    (event : Event) : Prop where
  ownership : m'.ownership = m.ownership
  cycles : m'.cycles = m.cycles
  assetFunding : m'.assetFunding = set₂ m.assetFunding c asset f
  totalOutstanding : m'.totalOutstanding = set m.totalOutstanding asset total
  events : m'.events = event::m.events

/-- Changing one entry keeps the counters, if the counter of its asset moves along. -/
theorem Balanced.updated {m m' : Storage} {c : Uint256} {asset : Address} {f : AssetFunding}
    {total : ℕ} {event : Event} (h : Balanced m) (hu : Updated m m' c asset f total event)
    (hf : f.Sound)
    (hn : total+(m.assetFunding c asset).outstanding = m.totalOutstanding asset+f.outstanding) :
    Balanced m' := by
  constructor
  · intro x a
    rw [hu.assetFunding,set₂_apply]
    split
    · exact hf
    · exact h.sound x a
  · intro a
    rw [hu.assetFunding,hu.totalOutstanding,set_apply]
    by_cases ha : a = asset
    · subst ha
      have hsum := sum_add_of_agree (f := fun x => (m.assetFunding x a).outstanding)
        (g := fun x => (set₂ m.assetFunding c a f x a).outstanding) (Finset.mem_univ c)
        (fun x _ hx => by rw [set₂_apply,if_neg (fun hk => hx hk.1)])
      have ho := h.outstanding a
      simp only [set₂_apply,and_self,if_true] at hsum
      simp only [set₂_apply,and_true,if_true]
      simp only [and_true] at hsum
      omega
    · rw [if_neg ha,h.outstanding a]
      apply Finset.sum_congr rfl
      intro x _
      rw [set₂_apply,if_neg (fun hk => ha hk.2)]

variable {d : Deployment} {w w' : World} {sender claimant asset : Address} {c : Uint256}
  {amount : ℕ}

/-- What a successful `_fundAsset` did. -/
structure Funded (d : Deployment) (w w' : World) (sender : Address) (c : Uint256)
    (asset : Address) (amount : ℕ) : Prop where
  amount_pos : 0 < amount
  fresh : (w.manager.assetFunding c asset).registered = false
  timestamp : w'.timestamp = w.timestamp
  paid : w.tokens.transferFrom asset d.here sender d.here amount = .ok w'.tokens
  received : (w'.tokens asset).balanceOf d.here = (w.tokens asset).balanceOf d.here+amount
  claimed : w'.manager.claimed = w.manager.claimed
  updated : Updated w.manager w'.manager c asset
    { w.manager.assetFunding c asset with registered := true, funded := amount }
    (w.manager.totalOutstanding asset+amount) (.cycleAssetFunded c asset amount)

theorem fundAsset_ok (h : fundAsset d sender c w asset amount = .ok w') :
    Funded d w w' sender c asset amount := by
  simp only [fundAsset,bind_eq_ok,revertIf_eq_ok,mapError_eq_ok,sub_eq_ok,add_eq_ok,exists_const,
    pure_eq_ok] at h
  obtain ⟨-,hamount,hfresh,l,hl,_,⟨hle,rfl⟩,hreceived,_,⟨-,rfl⟩,rfl⟩ := h
  exact ⟨by omega,by simpa using hfresh,rfl,hl,by dsimp only; omega,rfl,rfl,rfl,rfl,rfl,rfl⟩

/-- What a successful `_claim` did. -/
structure Claimed (d : Deployment) (w w' : World) (c : Uint256) (claimant asset : Address)
    (amount : Uint256) (proof : List Bytes32) : Prop where
  amount_pos : 0 < amount.val
  published : (w.manager.cycles c).published = true
  registered : (w.manager.assetFunding c asset).registered = true
  started : (w.manager.cycles c).claimStart ≤ w.timestamp
  unexpired : w.timestamp ≤ (w.manager.cycles c).claimDeadline
  unclaimed : w.manager.claimed c claimant asset = false
  verified : verify d.keccak256 proof (w.manager.cycles c).merkleRoot
    (leafFor d c claimant asset amount) = true
  covered : amount.val ≤ (w.manager.assetFunding c asset).outstanding
  timestamp : w'.timestamp = w.timestamp
  paid : w.tokens.transfer asset d.here claimant amount.val = .ok w'.tokens
  total_le : amount.val ≤ w.manager.totalOutstanding asset
  claimed : w'.manager.claimed = set₃ w.manager.claimed c claimant asset true
  updated : Updated w.manager w'.manager c asset
    { w.manager.assetFunding c asset with
      claimed := (w.manager.assetFunding c asset).claimed+amount.val }
    (w.manager.totalOutstanding asset-amount.val) (.claimed c claimant asset amount.val)

theorem claimOne_ok {amount : Uint256} {proof : List Bytes32}
    (h : claimOne d w c claimant asset amount proof = .ok w') :
    Claimed d w w' c claimant asset amount proof := by
  simp only [claimOne,bind_eq_ok,revertIf_eq_ok,mapError_eq_ok,sub_eq_ok,add_eq_ok,exists_const,
    pure_eq_ok] at h
  obtain ⟨hamount,hpub,hreg,hstart,hend,hun,hverify,_,⟨-,rfl⟩,_,⟨-,rfl⟩,hcov,_,⟨-,rfl⟩,_,
    ⟨htotal,rfl⟩,l,hl,rfl⟩ := h
  have hpos : 0 < amount.val := Nat.pos_of_ne_zero fun h0 => hamount (Fin.ext h0)
  exact ⟨hpos,by simpa using hpub,by simpa using hreg,by omega,by omega,by simpa using hun,
    by simpa using hverify,by simpa [AssetFunding.outstanding] using hcov,rfl,hl,htotal,rfl,rfl,rfl,rfl,rfl,rfl⟩

/-- What a successful `recoverExpired` did. -/
structure Recovered (d : Deployment) (w w' : World) (c : Uint256) (asset : Address) : Prop where
  published : (w.manager.cycles c).published = true
  registered : (w.manager.assetFunding c asset).registered = true
  expired : (w.manager.cycles c).claimDeadline < w.timestamp
  open_ : (w.manager.assetFunding c asset).recoveryClosed = false
  timestamp : w'.timestamp = w.timestamp
  paid : (0 < (w.manager.assetFunding c asset).outstanding ∧
      w.tokens.transfer asset d.here d.recoveryRecipient
        (w.manager.assetFunding c asset).outstanding = .ok w'.tokens) ∨
    ((w.manager.assetFunding c asset).outstanding = 0 ∧ w'.tokens = w.tokens)
  total_le : (w.manager.assetFunding c asset).outstanding ≤ w.manager.totalOutstanding asset
  claimed : w'.manager.claimed = w.manager.claimed
  updated : Updated w.manager w'.manager c asset
    { w.manager.assetFunding c asset with
      recovered := (w.manager.assetFunding c asset).recovered+
        (w.manager.assetFunding c asset).outstanding
      recoveryClosed := true }
    (w.manager.totalOutstanding asset-(w.manager.assetFunding c asset).outstanding)
    (.expiredRecovered c asset d.recoveryRecipient (w.manager.assetFunding c asset).outstanding)

theorem recoverExpired_ok (h : recoverExpired d w c asset = .ok w') :
    Recovered d w w' c asset := by
  simp only [recoverExpired,bind_eq_ok,revertIf_eq_ok,mapError_eq_ok,sub_eq_ok,add_eq_ok,
    exists_const,pure_eq_ok] at h
  obtain ⟨hpub,hreg,hexp,hopen,_,⟨-,rfl⟩,_,⟨-,rfl⟩,_,⟨-,rfl⟩,_,⟨htotal,rfl⟩,l,hl,rfl⟩ := h
  exact ⟨by simpa using hpub,by simpa using hreg,by omega,by simpa using hopen,rfl,
    Ledger.transferPositive_ok hl,htotal,rfl,rfl,rfl,rfl,rfl,rfl⟩

/-- The accounting invariant of the manager. -/
structure Solvent (d : Deployment) (w : World) : Prop extends Balanced w.manager where
  here_ne_zero : d.here ≠ 0
  closed : w.tokens.Closed d.here
  published : ∀ c asset, (w.manager.assetFunding c asset).registered = true →
    (w.manager.cycles c).published = true
  covered : ∀ asset, w.manager.totalOutstanding asset ≤ (w.tokens asset).balanceOf d.here
  paid : ∀ asset, (w.tokens asset).outflows d.here = payments w.manager.events asset
  claimants : ∀ c asset x, x ∈ (claims w.manager.events c asset).map Prod.fst ↔
    w.manager.claimed c x asset = true
  claimedOnce : ∀ c asset, ((claims w.manager.events c asset).map Prod.fst).Nodup
  claimedSum : ∀ c asset, (w.manager.assetFunding c asset).claimed =
    ((claims w.manager.events c asset).map Prod.snd).sum
  claimed_registered : ∀ c x asset, w.manager.claimed c x asset = true →
    (w.manager.assetFunding c asset).registered = true

theorem AssetFunding.unset_sound : AssetFunding.unset.Sound := by
  constructor <;> simp [unset,wordBound]

theorem Initial.solvent (h : Initial d w) : Solvent d w := by
  obtain ⟨o,ho⟩ := h.storage
  refine ⟨⟨fun c asset => ?_,?_⟩,h.here_ne_zero,h.closed,?_,?_,?_,?_,?_,?_,?_⟩
  · rw [ho]
    exact AssetFunding.unset_sound
  all_goals simp [ho,Storage.deployed,AssetFunding.outstanding,AssetFunding.unset,h.unspent,
    payments,claims]

/-- A registered entry stays registered when it is overwritten by a registered one. -/
theorem Updated.registered {m m' : Storage} {f : AssetFunding} {total : ℕ} {event : Event}
    (h : Updated m m' c asset f total event) (hf : f.registered = true) {x : Uint256} {a : Address}
    (hx : (m.assetFunding x a).registered = true) : (m'.assetFunding x a).registered = true := by
  rw [h.assetFunding,set₂_apply]
  split
  · exact hf
  · exact hx

/-- The cycle of a registered entry is published, if that of the new entry is. -/
theorem Updated.published {m m' : Storage} {f : AssetFunding} {total : ℕ} {event : Event}
    (h : Updated m m' c asset f total event) (hp : (m.cycles c).published = true)
    (hm : ∀ x a, (m.assetFunding x a).registered = true → (m.cycles x).published = true)
    (x : Uint256) (a : Address) (hx : (m'.assetFunding x a).registered = true) :
    (m'.cycles x).published = true := by
  rw [h.cycles]
  by_cases hk : x = c ∧ a = asset
  · rw [hk.1]
    exact hp
  · rw [h.assetFunding,set₂_apply,if_neg hk] at hx
    exact hm x a hx

/-- Funding adds one entry and its amount to the counter and to the balance. -/
theorem Funded.solvent (hs : Solvent d w) (hp : (w.manager.cycles c).published = true)
    (h : Funded d w w' sender c asset amount) : Solvent d w' := by
  obtain ⟨-,hallow,-,hl⟩ := Ledger.transferFrom_ok h.paid
  have hu := h.updated
  have hunset := (hs.sound c asset).unset h.fresh
  have hlt : amount < wordBound := hl.moved.covered.trans_lt ((w.tokens asset).balanceOf_lt sender)
  -- a closed account cannot fund a positive amount
  have hsender : d.here ≠ sender := by
    intro he
    have h0 := hs.closed asset d.here
    have hpos := h.amount_pos
    rw [← he] at hallow
    omega
  refine ⟨?_,hs.here_ne_zero,hl.closed hs.closed,hu.published hp hs.published,?_,?_,?_,?_,?_,?_⟩
  · rw [hunset] at hu
    refine hs.toBalanced.updated hu ?_ ?_
    · exact ⟨by simp,by simp [AssetFunding.unset],hlt,by simp [AssetFunding.unset],
        by simp [AssetFunding.unset]⟩
    · simp [hunset,AssetFunding.unset,AssetFunding.outstanding]
  · intro a
    have hc := hs.covered a
    have hb := hl.balance a d.here
    rw [hu.totalOutstanding,set_apply]
    split_ifs at hb ⊢ <;> grind
  · intro a
    rw [hl.outflows_other (Or.inl hsender),hs.paid a,hu.events]
    rfl
  · rw [hu.events,h.claimed]
    exact hs.claimants
  · rw [hu.events]
    exact hs.claimedOnce
  · intro x a
    have hsum := hs.claimedSum x a
    rw [hu.events,hu.assetFunding,set₂_apply]
    split
    · rename_i hk
      rw [← hk.1,← hk.2]
      exact hsum
    · exact hsum
  · intro x y a hx
    rw [h.claimed] at hx
    exact hu.registered rfl (hs.claimed_registered x y a hx)

/-- A claim moves its amount from what is owed to what is claimed, and pays it. -/
theorem Claimed.solvent {amount : Uint256} {proof : List Bytes32} (hs : Solvent d w)
    (h : Claimed d w w' c claimant asset amount proof) : Solvent d w' := by
  obtain ⟨-,-,hl⟩ := Ledger.transfer_ok h.paid
  have hu := h.updated
  have hf := hs.sound c asset
  have hcov := h.covered
  have hpos := h.amount_pos
  unfold AssetFunding.outstanding at hcov
  refine ⟨?_,hs.here_ne_zero,hl.closed hs.closed,hu.published h.published hs.published,
    ?_,?_,?_,?_,?_,?_⟩
  · refine hs.toBalanced.updated hu ?_ ?_
    · refine ⟨by simp [h.registered],?_,hf.funded_lt,fun hr => ?_,hf.unrecovered⟩
      · dsimp only
        omega
      · have := hf.closed hr
        omega
    · have htot := h.total_le
      simp only [AssetFunding.outstanding]
      omega
  · intro a
    have hc := hs.covered a
    have hb := hl.balance a d.here
    have htot := h.total_le
    rw [hu.totalOutstanding,set_apply]
    split_ifs at hb ⊢ <;> grind
  · intro a
    rw [hl.outflows_source hpos,hs.paid a,hu.events,payments_claimed _ _ _ _ _ hpos]
  · intro x a y
    have hx := hs.claimants x a y
    rw [hu.events,claims_claimed,h.claimed,set₃_apply]
    by_cases hk : c = x ∧ asset = a
    · obtain ⟨rfl,rfl⟩ := hk
      by_cases hy : y = claimant <;> simp [hy,hx]
    · have hne : ¬(x = c ∧ y = claimant ∧ a = asset) := fun e => hk ⟨e.1.symm,e.2.2.symm⟩
      rw [if_neg hk,if_neg hne]
      exact hx
  · intro x a
    rw [hu.events,claims_claimed]
    split
    · rename_i hk
      obtain ⟨rfl,rfl⟩ := hk
      rw [List.map_cons,List.nodup_cons]
      refine ⟨?_,hs.claimedOnce c asset⟩
      rw [hs.claimants c asset claimant,h.unclaimed]
      exact Bool.false_ne_true
    · exact hs.claimedOnce x a
  · intro x a
    have hsum := hs.claimedSum x a
    rw [hu.events,hu.assetFunding,set₂_apply,claims_claimed]
    by_cases hk : x = c ∧ a = asset
    · obtain ⟨rfl,rfl⟩ := hk
      simp [hsum,Nat.add_comm]
    · have hne : ¬(c = x ∧ asset = a) := fun e => hk ⟨e.1.symm,e.2.symm⟩
      rw [if_neg hk,if_neg hne]
      exact hsum
  · intro x y a hx
    rw [h.claimed,set₃_apply] at hx
    by_cases hk : x = c ∧ y = claimant ∧ a = asset
    · obtain ⟨rfl,-,rfl⟩ := hk
      exact hu.registered h.registered h.registered
    · rw [if_neg hk] at hx
      exact hu.registered h.registered (hs.claimed_registered x y a hx)

/-- A recovery moves what is owed to what is recovered, and pays it if it is positive. -/
theorem Recovered.solvent (hs : Solvent d w) (h : Recovered d w w' c asset) : Solvent d w' := by
  have hu := h.updated
  have hf := hs.sound c asset
  have hcov := hf.covered
  have htot := h.total_le
  have hclosed : w'.tokens.Closed d.here := by
    rcases h.paid with ⟨-,hp⟩ | ⟨-,hp⟩
    · exact (Ledger.transfer_ok hp).2.2.closed hs.closed
    · rw [hp]
      exact hs.closed
  refine ⟨?_,hs.here_ne_zero,hclosed,hu.published h.published hs.published,?_,?_,?_,?_,?_,?_⟩
  · refine hs.toBalanced.updated hu ?_ ?_
    · refine ⟨by simp [h.registered],?_,hf.funded_lt,fun _ => ?_,by simp⟩
      all_goals
        simp only [AssetFunding.outstanding]
        omega
    · simp only [AssetFunding.outstanding] at htot ⊢
      omega
  · intro a
    have hc := hs.covered a
    rw [hu.totalOutstanding,set_apply]
    rcases h.paid with ⟨-,hp⟩ | ⟨hz,hp⟩
    · have hb := (Ledger.transfer_ok hp).2.2.balance a d.here
      split_ifs at hb ⊢ <;> grind
    · rw [hp]
      split_ifs <;> grind
  · intro a
    rw [hu.events,payments_recovered]
    rcases h.paid with ⟨hpos,hp⟩ | ⟨hz,hp⟩
    · rw [(Ledger.transfer_ok hp).2.2.outflows_source hpos,hs.paid a]
      simp [hpos]
    · rw [hp,hs.paid a,hz]
      simp
  · rw [hu.events,h.claimed]
    exact hs.claimants
  · rw [hu.events]
    exact hs.claimedOnce
  · intro x a
    have hsum := hs.claimedSum x a
    rw [hu.events,hu.assetFunding,set₂_apply]
    split
    · rename_i hk
      rw [← hk.1,← hk.2]
      exact hsum
    · exact hsum
  · intro x y a hx
    rw [h.claimed] at hx
    exact hu.registered h.registered (hs.claimed_registered x y a hx)

/-- The world in which a cycle is published and not funded yet. -/
def World.opened (w : World) (p : Publication) : World :=
  { w with
    manager := { w.manager with
      cycles := set w.manager.cycles p.cycleId p.cycle
      events := .cyclePublished p.cycleId p.merkleRoot p.allocationsContentHash
        p.manifestEnvelopeHash p.claimStart p.claimDeadline p.assets.length::w.manager.events } }

/-- What a successful `publishCycle` checked and did. -/
structure Published (d : Deployment) (w w' : World) (sender : Address) (p : Publication) :
    Prop where
  owner : w.manager.ownership.owner = sender
  unpublished : (w.manager.cycles p.cycleId).published = false
  root_ne_zero : p.merkleRoot ≠ 0
  claimStart_gt : w.timestamp < p.claimStart
  claimDeadline_gt : p.claimStart < p.claimDeadline
  assets_ne_nil : p.assets ≠ []
  lengths : p.assets.length = p.fundedAmounts.length
  funded : fundAssets d sender p.cycleId (p.assets.zip p.fundedAmounts) (w.opened p) = .ok w'

theorem publishCycle_ok {p : Publication} (h : publishCycle d w sender p = .ok w') :
    Published d w w' sender p := by
  simp only [publishCycle,bind_eq_ok,mapError_eq_ok,Ownable.checkOwner_eq_ok,revertIf_eq_ok,
    exists_const] at h
  obtain ⟨howner,hun,hroot,-,hstart,hdead,hne,hlen,h⟩ := h
  exact ⟨howner,by simpa using hun,hroot,by omega,by omega,
    fun he => hne (List.length_eq_zero_iff.mpr he),by omega,h⟩

/-- The loop rule of publication: what funding one asset preserves, funding them all
preserves. -/
theorem fundAssets_preserves {I : World → Prop}
    (hstep : ∀ w w' asset amount, I w → Funded d w w' sender c asset amount → I w')
    {rest : List (Address × ℕ)} (hw : I w) (h : fundAssets d sender c rest w = .ok w') :
    I w' := by
  induction rest generalizing w with
  | nil =>
    cases h
    exact hw
  | cons x rest ih =>
    simp only [fundAssets,bind_eq_ok] at h
    obtain ⟨u,hu,h⟩ := h
    exact ih (hstep _ _ _ _ hw (fundAsset_ok hu)) h

theorem Published.timestamp {p : Publication} (h : Published d w w' sender p) :
    w'.timestamp = w.timestamp :=
  fundAssets_preserves (I := fun v => v.timestamp = w.timestamp)
    (fun _ _ _ _ hv hf => hf.timestamp.trans hv) (show (w.opened p).timestamp = _ from rfl) h.funded

/-- The loop rule of a batch of claims. -/
theorem claimAll_preserves {I : World → Prop}
    (hstep : ∀ w w' asset amount proof, I w → Claimed d w w' c sender asset amount proof →
      I w')
    {requests : List ClaimRequest} (hw : I w) (h : claimAll d sender c requests w = .ok w') :
    I w' := by
  induction requests generalizing w with
  | nil =>
    cases h
    exact hw
  | cons r rest ih =>
    simp only [claimAll,bind_eq_ok] at h
    obtain ⟨u,hu,h⟩ := h
    exact ih (hstep _ _ _ _ _ hw (claimOne_ok hu)) h

theorem Solvent.opened {p : Publication} (hs : Solvent d w) : Solvent d (w.opened p) := by
  refine ⟨⟨hs.sound,hs.outstanding⟩,hs.here_ne_zero,hs.closed,?_,hs.covered,hs.paid,hs.claimants,
    hs.claimedOnce,hs.claimedSum,hs.claimed_registered⟩
  intro x a hx
  have hp := hs.published x a hx
  simp only [World.opened,set_apply]
  split
  · rfl
  · exact hp

theorem opened_published (w : World) (p : Publication) :
    ((w.opened p).manager.cycles p.cycleId).published = true := by
  simp [World.opened,Publication.cycle]

/-- The calls of other accounts on the tokens cannot touch the manager's custody. -/
theorem Solvent.of_kept {l : Ledger} (hs : Solvent d w)
    (hk : ∀ x, Call.Kept d.here (w.tokens x) (l x)) : Solvent d { w with tokens := l } :=
  ⟨hs.toBalanced,hs.here_ne_zero,fun x => (hk x).closed,hs.published,
    fun x => (hs.covered x).trans (hk x).balance,fun x => (hk x).outflows.trans (hs.paid x),
    hs.claimants,hs.claimedOnce,hs.claimedSum,hs.claimed_registered⟩

/-- What a successful transaction did, by its kind. -/
theorem exec_cases {tx : Tx} (h : exec d w tx = .ok w') :
    (∃ seconds, tx = .elapse seconds ∧ w' = { w with timestamp := w.timestamp+seconds }) ∨
    (∃ sender p, tx = .publishCycle sender p ∧ Published d w w' sender p) ∨
    (∃ sender c asset amount proof, tx = .claim sender c asset amount proof ∧
      Claimed d w w' c sender asset amount proof) ∨
    (∃ sender c requests, tx = .claimBatch sender c requests ∧
      claimAll d sender c requests w = .ok w') ∨
    (∃ sender c asset, tx = .recoverExpired sender c asset ∧ Recovered d w w' c asset) ∨
    (∃ sender call o, tx = .ownership sender call ∧
      call.exec sender w.manager.ownership = .ok o ∧
      w' = { w with manager := { w.manager with ownership := o } }) ∨
    (∃ asset call l, tx = .token asset call ∧ call.sender ≠ d.here ∧
      w.tokens.call asset call = .ok l ∧ w' = { w with tokens := l }) := by
  cases tx with
  | elapse seconds => exact Or.inl ⟨seconds,rfl,by simpa [exec,eq_comm] using h⟩
  | publishCycle sender p => exact Or.inr (Or.inl ⟨sender,p,rfl,publishCycle_ok h⟩)
  | claim sender c asset amount proof =>
    exact Or.inr (Or.inr (Or.inl ⟨sender,c,asset,amount,proof,rfl,claimOne_ok h⟩))
  | claimBatch sender c requests =>
    simp only [exec,claimBatch,bind_eq_ok,revertIf_eq_ok,exists_const] at h
    exact Or.inr (Or.inr (Or.inr (Or.inl ⟨sender,c,requests,rfl,h.2⟩)))
  | recoverExpired sender c asset =>
    exact Or.inr (Or.inr (Or.inr (Or.inr (Or.inl ⟨sender,c,asset,rfl,recoverExpired_ok h⟩))))
  | ownership sender call =>
    simp only [exec,bind_eq_ok,mapError_eq_ok,pure_eq_ok] at h
    obtain ⟨o,ho,rfl⟩ := h
    exact Or.inr (Or.inr (Or.inr (Or.inr (Or.inr (Or.inl ⟨sender,call,o,rfl,ho,rfl⟩)))))
  | token asset call =>
    simp only [exec,bind_eq_ok,revertIf_eq_ok,mapError_eq_ok,exists_const,pure_eq_ok] at h
    obtain ⟨hne,l,hl,rfl⟩ := h
    exact Or.inr (Or.inr (Or.inr (Or.inr (Or.inr (Or.inr ⟨asset,call,l,rfl,hne,hl,rfl⟩)))))

theorem Published.solvent {p : Publication} (hs : Solvent d w) (h : Published d w w' sender p) :
    Solvent d w' := by
  have hinv := fundAssets_preserves
    (I := fun u => Solvent d u ∧ (u.manager.cycles p.cycleId).published = true)
    (fun u u' asset amount hu hf =>
      ⟨hf.solvent hu.1 hu.2,by rw [hf.updated.cycles]; exact hu.2⟩)
    ⟨hs.opened,opened_published w p⟩ h.funded
  exact hinv.1

theorem exec_solvent {tx : Tx} (hs : Solvent d w) (h : exec d w tx = .ok w') : Solvent d w' := by
  rcases exec_cases h with ⟨_,-,rfl⟩ | ⟨_,_,-,hp⟩ | ⟨_,_,_,_,_,-,hc⟩ | ⟨_,_,_,-,hb⟩ |
    ⟨_,_,_,-,hr⟩ | ⟨_,_,_,-,-,rfl⟩ | ⟨asset,call,l,-,hne,hl,rfl⟩
  · exact { hs with }
  · exact hp.solvent hs
  · exact hc.solvent hs
  · exact claimAll_preserves (fun _ _ _ _ _ hu hc => hc.solvent hu) hs hb
  · exact hr.solvent hs
  · exact { hs with }
  · exact hs.of_kept (Ledger.call_kept hs.here_ne_zero hne hs.closed hl)

theorem Reachable.solvent (h : Reachable d w) : Solvent d w :=
  Machine.Reachable.invariant (fun _ hi => hi.solvent) (fun _ _ _ hs hx => exec_solvent hs hx) h

end ClaimManager
end BpsProtocol
