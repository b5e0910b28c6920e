import BpsProtocol.CoordinatorCustody
import BpsProtocol.CycleRoster
import BpsProtocol.Lib.Pairing
import BpsProtocol.SnapshotSettlement

/-! Every published entitlement can be claimed.
The participants of a run form a roster for the cycle that publishes the run's root: the
pipeline verified each proof, lists an account once, and gives out no more than the amount
that funds the cycle. -/
namespace BpsProtocol
namespace SnapshotPipeline

open Checked Shared HexText LeafEncoding Merkle MerkleProof ClaimManager

/-- The claim that a published entitlement allows. -/
def shareOf (p : ParticipantEntitlement) : Option Share := do
  let claimant ← addressOf p.address
  let amount ← uint256 (bigInt p.entitlement)
  return { claimant,amount,proof := p.proof }

def publishedShares (result : SnapshotRunResult) : List Share :=
  result.proofBundle.participants.filterMap shareOf

/-- The on-chain publication of a run: its root and cycle on its own chain and manager, and
its one asset funded with the distributed amount. -/
structure Publishes (keccak256 : Hash) (req : SnapshotRequest) (result : SnapshotRunResult)
    (d : Deployment) (asset : Address) (p : Publication) : Prop where
  hash : d.keccak256 = keccak256
  chainId : req.chainId = (d.chainId.val : ℤ)
  claimManager : addressOf req.claimManager = some d.here
  distributionAsset : addressOf req.distributionAsset = some asset
  cycleId : req.cycleId = (p.cycleId.val : ℤ)
  merkleRoot : p.merkleRoot = result.snapshot.merkleRoot
  assets : p.assets = [asset]
  fundedAmounts : p.fundedAmounts = [req.distributionAmount.toNat]

variable {T : Type} {S : StandardMerkleTree T} {keccak256 : Hash} {reader : ChainReader}
  {req : SnapshotRequest} {result : SnapshotRunResult} {d : Deployment} {asset : Address}
  {p : Publication} {keccakOfCanonical : Artifact → Bytes32}

/-- A share holds what the published entitlement shows. -/
structure Shows (q : ParticipantEntitlement) (s : Share) : Prop where
  address : q.address = addressText s.claimant
  entitlement : q.entitlement = toString10 s.amount.val
  proof : q.proof = s.proof

/-- A share pays an entitlement, and its proof verifies for the publication. -/
structure Pays (d : Deployment) (p : Publication) (asset : Address) (e : Entitled) (s : Share) :
    Prop where
  address : e.address = addressText s.claimant
  amount : e.amount = (s.amount.val : ℤ)
  verified : verify d.keccak256 s.proof p.merkleRoot
    (leafFor d p.cycleId s.claimant asset s.amount) = true

theorem Proved.share {e : Entitled} {q : ParticipantEntitlement}
    (hpub : Publishes keccak256 req result d asset p) {a : Address}
    (haddress : e.address = addressText a)
    (h : Proved keccak256 req (addressText d.here) (addressText asset) result.snapshot.merkleRoot
      e q) : ∃ s, shareOf q = some s ∧ Shows q s ∧ Pays d p asset e s := by
  obtain ⟨l,hl,hverified⟩ := h.verified
  obtain ⟨hchain,hmanager,hcycle,hwallet,hasset,hamount⟩ := leaf_eq_some.1 hl
  simp only [fieldsOf,addressOf_addressText,haddress,Option.some.injEq]
    at hchain hmanager hcycle hwallet hasset hamount
  have hchain' : l.chainId = d.chainId := Fin.ext (by
    have := hpub.chainId
    omega)
  have hcycle' : l.cycleId = p.cycleId := Fin.ext (by
    have := hpub.cycleId
    omega)
  have hl' : l = ⟨d.chainId,d.here,p.cycleId,a,asset,l.amount⟩ := by
    cases l
    simp only at hchain' hcycle' hmanager hwallet hasset
    rw [hchain',hcycle',hmanager,hwallet,hasset]
  have hshare : shareOf q = some ⟨a,l.amount,q.proof⟩ := by
    have hword : uint256 e.amount = some l.amount := uint256_eq_some.2 hamount
    simp [shareOf,h.address,haddress,h.entitlement,bigInt_toString10 h.amount_nonneg,hword]
  refine ⟨_,hshare,⟨h.address.trans haddress,?_,rfl⟩,⟨haddress,hamount,?_⟩⟩
  · rw [h.entitlement,hamount]
  · rw [hpub.merkleRoot,hpub.hash,leafFor,hpub.hash,← hl']
    exact hverified

/-- Entitlements, published participants and shares correspond one by one. -/
theorem shares_of_proved {entitled : List Entitled} {published : List ParticipantEntitlement}
    (hpub : Publishes keccak256 req result d asset p)
    (hcanonical : ∀ e ∈ entitled, ∃ a, e.address = addressText a)
    (h : List.Forall₂ (Proved keccak256 req (addressText d.here) (addressText asset)
      result.snapshot.merkleRoot) entitled published) :
    List.Forall₂ Shows published (published.filterMap shareOf) ∧
      List.Forall₂ (Pays d p asset) entitled (published.filterMap shareOf) := by
  induction h with
  | nil => exact ⟨.nil,.nil⟩
  | @cons e q entitled published hhead _ ih =>
    obtain ⟨a,ha⟩ := hcanonical e (by simp)
    obtain ⟨s,hs,hshows,hpays⟩ := hhead.share hpub ha
    obtain ⟨hpublished,hentitled⟩ := ih (fun e' he' => hcanonical e' (List.mem_cons_of_mem _ he'))
    rw [List.filterMap_cons,hs]
    exact ⟨.cons hshows hpublished,.cons hpays hentitled⟩

/-- The shares of a run are a roster of the cycle that publishes it. -/
theorem publishedShares_roster
    (hrun : runSnapshotPipeline S keccak256 keccakOfCanonical reader req = .ok result)
    (hpub : Publishes keccak256 req result d asset p) :
    List.Forall₂ Shows result.proofBundle.participants (publishedShares result) ∧
      Roster d p.merkleRoot p.cycleId asset req.distributionAmount.toNat
        (publishedShares result) := by
  obtain ⟨manager,token,header,records,enumeration,s,hran⟩ := runSnapshotPipeline_ok hrun
  obtain rfl := Option.some.inj (hran.managerText.symm.trans hpub.claimManager)
  obtain rfl := Option.some.inj (hran.assetText.symm.trans hpub.distributionAsset)
  obtain ⟨hnodup,hmem⟩ := enumerateCandidates_ok hran.enumerated
  have hsettled := hran.settled
  have haddresses : (s.entitled.map Entitled.address).Sublist enumeration.candidates := by
    rw [hsettled.entitled,hsettled.participants,List.map_map]
    refine ((List.filter_sublist).map Entitled.address).trans ?_
    rw [List.map_map]
    exact (List.map_id _).symm ▸ List.filter_sublist
  have hcanonical : ∀ e ∈ s.entitled, ∃ a, e.address = addressText a := by
    intro e he
    obtain ⟨a,-,ha⟩ := (hmem e.address).1 (haddresses.subset (List.mem_map_of_mem he))
    exact ⟨a,ha⟩
  have hproved := hsettled.proved
  rw [← hran.assembled.merkleRoot] at hproved
  obtain ⟨hshows,hpays⟩ := shares_of_proved hpub hcanonical hproved
  rw [publishedShares,hran.assembled.bundle]
  refine ⟨hshows,?_,?_,?_,?_⟩
  · -- a candidate is listed once, so a claimant has one share
    have hnodup' := haddresses.nodup hnodup
    rw [Pairing.map_eq hpays (g := fun x => addressText x.claimant) (fun _ _ h => h.address),
      ← Function.comp_def addressText,← List.map_map] at hnodup'
    exact List.Nodup.of_map addressText hnodup'
  · intro x hx
    obtain ⟨e,he,hp⟩ := Pairing.exists_left hpays hx
    rw [hsettled.entitled,List.mem_filter] at he
    intro hzero
    have hamount := hp.amount
    rw [hzero] at hamount
    exact absurd hamount (by simpa using he.2)
  · intro x hx
    obtain ⟨e,he,hp⟩ := Pairing.exists_left hpays hx
    exact hp.verified
  · have hcovered := hsettled.covered
    have hpos := hran.amount_pos
    rw [entitlementTotal,Pairing.map_eq hpays (g := fun x => (x.amount.val : ℤ))
      (fun _ _ h => h.amount)] at hcovered
    have htotal : (((s.withProofs.filterMap shareOf).map (fun x => (x.amount.val : ℤ))).sum) =
        (rosterTotal (s.withProofs.filterMap shareOf) : ℤ) := by
      rw [rosterTotal,Nat.cast_list_sum,List.map_map]
      rfl
    omega

/-- The world right after a publication: by the owner of the manager, or by the coordinator
that owns it, for an acquisition that it recorded. -/
inductive Launched (d : Deployment) (p : Publication) : World → Prop
  | byOwner {w₀ w₁ : World} {sender : Address} (hreach : Reachable d w₀)
      (hpublish : publishCycle d w₀ sender p = .ok w₁) : Launched d p w₁
  | byCoordinator {s : Coordinator.System} {w₀ w₁ : Coordinator.World} {sender : Address}
      {acquisitionId : ℕ} {inputs : Coordinator.PublishInputs} (hmanager : s.manager = d)
      (hreach : Coordinator.Reachable s w₀)
      (hfund : Coordinator.fundRecordedAcquisition s w₀ sender acquisitionId inputs = .ok w₁)
      (hinputs : p = inputs.publication (w₀.coordinator.acquisitions acquisitionId).stockToken
        (w₀.coordinator.acquisitions acquisitionId).distributionAmount) :
      Launched d p w₁.atManager

theorem Launched.reachable {w : World} (h : Launched d p w) : Reachable d w := by
  cases h with
  | @byOwner w₀ _ sender hreach hpublish =>
    have hx : exec d w₀ (.publishCycle sender p) = .ok w := hpublish
    exact hreach.step hx
  | @byCoordinator s w₀ w₁ sender acquisitionId inputs hmanager hreach hfund _ =>
    subst hmanager
    have hx : Coordinator.exec s w₀ (.fundRecordedAcquisition sender acquisitionId inputs) =
        .ok w₁ := hfund
    exact Coordinator.Reachable.manager (hreach.step hx)

/-- A launched cycle is live. -/
theorem Launched.opens {w : World} {funded : ℕ} {shares : List Share} (h : Launched d p w)
    (hassets : p.assets = [asset]) (hamounts : p.fundedAmounts = [funded]) :
    Live d p.cycle p.cycleId asset funded shares w := by
  cases h with
  | byOwner hreach hpublish => exact (publishCycle_ok hpublish).opens hreach.solvent hassets hamounts
  | @byCoordinator s w₀ w₁ _ _ _ hmanager hreach hfund hinputs =>
    subst hmanager hinputs
    obtain ⟨u,u',hbefore,hpublish,hafter⟩ := Coordinator.fundRecordedAcquisition_runs hfund
    have hsolvent : Solvent s.manager u := Reachable.solvent (hreach.manager.runs hbefore)
    have hopened : Live s.manager _ _ asset funded shares u' :=
      (publishCycle_ok hpublish).opens hsolvent hassets hamounts
    exact exec_live hopened (by exact trivial) hafter

/-- After a cycle is published with the root of a run and funded with the distributed
amount, in every run whose claims on it are published entitlements: each first claim inside
the window is paid, alone or in a batch; once all claimed, the sum of the entitlements is
paid, which the funding covers; and a recovery after the deadline sweeps the rest.  A
claimant is a sender, so it is not the zero address. -/
theorem published_entitlements_claimable
    (hrun : runSnapshotPipeline S keccak256 keccakOfCanonical reader req = .ok result)
    (hpub : Publishes keccak256 req result d asset p) {w₀ w : World} (hlaunched : Launched d p w₀)
    {txs : List Tx} (hfollows : ∀ tx ∈ txs, Follows p.cycleId asset (publishedShares result) tx)
    (hw : Machine.run (exec d) w₀ txs = w) :
    List.Forall₂ Shows result.proofBundle.participants (publishedShares result) ∧
    (∀ s ∈ publishedShares result, s.claimant ≠ 0 → p.claimStart ≤ w.timestamp →
      w.timestamp ≤ p.claimDeadline → w.manager.claimed p.cycleId s.claimant asset = false →
      (∃ w', claim d w s.claimant p.cycleId asset s.amount s.proof = .ok w' ∧
        w.tokens.transfer asset d.here s.claimant s.amount.val = .ok w'.tokens) ∧
      ∀ requests : List ClaimRequest, requests ≠ [] → requests.Nodup →
        (∀ r ∈ requests, r.asset = asset ∧
          ⟨s.claimant,r.amount,r.proof⟩ ∈ publishedShares result) →
        ∃ w', claimBatch d w s.claimant p.cycleId requests = .ok w') ∧
    ((∀ s ∈ publishedShares result, w.manager.claimed p.cycleId s.claimant asset = true) →
      paidTotal w p.cycleId asset = rosterTotal (publishedShares result)) ∧
    rosterTotal (publishedShares result) ≤ req.distributionAmount.toNat ∧
    (p.claimDeadline < w.timestamp →
      (w.manager.assetFunding p.cycleId asset).recoveryClosed = false →
      ∃ w', recoverExpired d w p.cycleId asset = .ok w' ∧
        w'.manager.events = .expiredRecovered p.cycleId asset d.recoveryRecipient
          (req.distributionAmount.toNat-paidTotal w p.cycleId asset)::w.manager.events ∧
        w.tokens.transferPositive asset d.here d.recoveryRecipient
          (req.distributionAmount.toNat-paidTotal w p.cycleId asset) = .ok w'.tokens) := by
  obtain ⟨hshows,hroster⟩ := publishedShares_roster hrun hpub
  have hopened : Live d p.cycle p.cycleId asset req.distributionAmount.toNat
      (publishedShares result) w₀ := hlaunched.opens hpub.assets hpub.fundedAmounts
  have hlive := hopened.run hfollows
  rw [hw] at hlive
  have hrecipient : d.recoveryRecipient ≠ 0 := by
    obtain ⟨w₁,-,hinit,-⟩ := hlaunched.reachable
    exact hinit.recoveryRecipient_ne_zero
  refine ⟨hshows,?_,hlive.paidTotal_eq hroster,hroster.covered,
    fun hend hopen => hlive.recoverExpired_sweeps hrecipient hend hopen⟩
  intro s hs hclaimant hstart hend hun
  exact ⟨hlive.claimOne_succeeds hroster hs hclaimant hstart hend hun,
    fun requests hne hnodup hall =>
      hlive.claimBatch_succeeds hroster hs hclaimant hstart hend hun hne hnodup hall⟩

/-- A chain with two locks, of weight `2` for account `1` and weight `1` for account `2`. -/
def sampleReader : ChainReader where
  chainId := some 1
  block := fun _ => some (some ⟨'0' :: 'x' :: write 64 0,100⟩)
  vaultHasCodeAt := fun block => some (decide (5 ≤ block))
  lockCreated := fun _ _ => some [⟨addressText 2,0,6,0⟩,⟨addressText 1,0,7,0⟩]
  lockWithdrawn := fun _ _ => some []
  lockCountAt := fun _ _ => some 1
  positionWeightAt := fun account _ _ _ => some (if account = addressText 1 then 2 else 1)
  leafFor := fun cycleId wallet asset amount _ =>
    (LeafFields.leaf ⟨1,addressText 100,cycleId,wallet,asset,amount⟩).map
      (fun l => '0' :: 'x' :: write 64 (l.hash toyHash).val)
  syncedThrough := some 10

def sampleRequest : SnapshotRequest where
  chainId := 1
  lockingVault := addressText 60
  claimManager := addressText 100
  snapshotBlock := 10
  expectedBlockHash := '0' :: 'x' :: write 64 0
  enumerationStartBlock := 5
  distributionAsset := addressText 50
  distributionAmount := 80
  cycleId := 1
  claimStart := 10
  claimDeadline := 20

def sampleRun : Except SnapshotPipelineError SnapshotRunResult :=
  runSnapshotPipeline (chainTrees toyHash) toyHash (fun _ => 1) sampleReader sampleRequest

def sampleShares : List Share := (sampleRun.toOption.map publishedShares).getD []

def sampleInputs : Coordinator.PublishInputs where
  cycleId := 1
  merkleRoot := (sampleRun.toOption.map fun r => r.snapshot.merkleRoot).getD 0
  allocationsContentHash := 1
  manifestEnvelopeHash := 1
  claimStart := 10
  claimDeadline := 20

/-- One acquisition of a hundred units is recorded, so eighty are distributed. -/
def sampleRecorded : Coordinator.World :=
  Machine.run (Coordinator.exec Coordinator.sample)
    ⟨0,fun _ => Erc20.Token.empty,.deployed 200,.deployed,.deployed⟩
    [.foreign (.token 40 (.mint 2 201 1000)),
      .executeAndRecordAcquisition 11 50 1000 1 0 Coordinator.sampleAdapter]

def sampleFunded : Coordinator.World :=
  Machine.commit (Coordinator.exec Coordinator.sample) sampleRecorded
    (.fundRecordedAcquisition 12 1 sampleInputs)

def sampleOpen : World :=
  Machine.run (exec Coordinator.sample.manager) sampleFunded.atManager [.elapse 10]

theorem sampleRecorded_reachable : Coordinator.Reachable Coordinator.sample sampleRecorded :=
  (Machine.Reachable.of_init ⟨rfl,rfl,rfl,by decide,by decide,fun _ _ _ _ => rfl,fun _ => rfl⟩).run _

/-- Account `1` holds two thirds of the weight and is paid `53` of the eighty. -/
theorem sampleRun_claimable : ∃ s ∈ sampleShares, s.claimant = 1 ∧ s.amount = 53 ∧ ∃ w',
    claim Coordinator.sample.manager sampleOpen s.claimant 1 50 s.amount s.proof = .ok w' := by
  -- one evaluation for all that is read off the sample
  have hsample : sampleRun.isOk = true ∧
      (Coordinator.fundRecordedAcquisition Coordinator.sample sampleRecorded 12 1
        sampleInputs).isOk = true ∧
      ((sampleRecorded.coordinator.acquisitions 1).stockToken = 50 ∧
        (sampleRecorded.coordinator.acquisitions 1).distributionAmount = 80) ∧
      (∃ s ∈ sampleShares, s.claimant = 1 ∧ s.amount = 53) ∧
      sampleOpen.timestamp = 10 ∧ sampleOpen.manager.claimed 1 1 50 = false := by
    decide +kernel
  obtain ⟨hrunOk,hfundOk,⟨htoken,hamount⟩,⟨s,hs,hclaimant,hshare⟩,htime,hunclaimed⟩ := hsample
  obtain ⟨result,hrun⟩ := exists_eq_ok hrunOk
  obtain ⟨funded,hfund⟩ := exists_eq_ok hfundOk
  have hcommit : sampleFunded = funded := Machine.commit_ok hfund
  have hinputs : sampleInputs.publication
      (sampleRecorded.coordinator.acquisitions 1).stockToken
      (sampleRecorded.coordinator.acquisitions 1).distributionAmount =
        sampleInputs.publication 50 80 := by
    rw [htoken,hamount]
  have hroot : (sampleInputs.publication 50 80).merkleRoot = result.snapshot.merkleRoot := by
    simp [Coordinator.PublishInputs.publication,sampleInputs,hrun,Except.toOption]
  have hshares : sampleShares = publishedShares result := by
    simp [sampleShares,hrun,Except.toOption]
  have hpub : Publishes toyHash sampleRequest result Coordinator.sample.manager 50
      (sampleInputs.publication 50 80) :=
    ⟨rfl,rfl,by decide +kernel,by decide +kernel,rfl,hroot,rfl,rfl⟩
  have hlaunched : Launched Coordinator.sample.manager (sampleInputs.publication 50 80)
      sampleFunded.atManager := by
    rw [hcommit]
    exact .byCoordinator rfl sampleRecorded_reachable hfund hinputs.symm
  refine ⟨s,hs,hclaimant,hshare,?_⟩
  rw [hshares] at hs
  have hfollows : ∀ tx ∈ [Tx.elapse 10], Follows 1 50 (publishedShares result) tx := by
    simp [Follows]
  have hcycle : (sampleInputs.publication 50 80).cycleId = 1 := rfl
  have hpaid := (published_entitlements_claimable (w := sampleOpen) hrun hpub hlaunched hfollows
    rfl).2.1 s hs (by rw [hclaimant]; decide) htime.ge (htime.le.trans (by decide))
    (by rw [hcycle,hclaimant,hunclaimed])
  obtain ⟨w',hclaimed,-⟩ := hpaid.1
  exact ⟨w',hclaimed⟩

end SnapshotPipeline
end BpsProtocol
