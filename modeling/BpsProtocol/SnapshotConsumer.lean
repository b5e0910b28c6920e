import BpsProtocol.SnapshotClaims

/-! The read-only consumer of a snapshot's artifacts.
A participant looks an entitlement up in the proof bundle, whose proof is checked once more, and
the aggregates are read off the snapshot. -/
namespace BpsProtocol
namespace SnapshotPipeline

open Checked Shared HexText LeafEncoding Merkle MerkleProof ClaimManager

structure ParticipantView where
  address : Text
  effectiveWeight : Text
  entitlement : Text
  leaf : Bytes32
  proof : List Bytes32
  merkleRoot : Bytes32
  verified : Bool

structure AggregateView where
  chainId : Text
  snapshotBlock : Text
  snapshotBlockHash : Text
  merkleRoot : Bytes32
  distributionAsset : Text
  distributionAmount : Text
  entitlementTotal : Text
  dust : Text
  includedParticipantCount : ℕ
  publicationStatus : String

/-- The fields of the leaf that a bundle holds for an entitlement. -/
def ProofBundle.fields (bundle : ProofBundle) (p : ParticipantEntitlement) : LeafFields where
  chainId := bigInt bundle.chainId
  claimManager := bundle.claimManager
  cycleId := bigInt bundle.cycleId
  wallet := p.address
  asset := bundle.distributionAsset
  amount := bigInt p.entitlement

/-- The entitlement of an address; none if the bundle has none. -/
def lookupParticipant (keccak256 : Hash) (bundle : ProofBundle) (address : Text) :
    Except SnapshotPipelineError (Option ParticipantView) := do
  let normalized ← normalize address "address"
  match bundle.participants.find? fun p => p.address = normalized with
  | none => return none
  | some p => do
    let verified ← orRevert .library
      (viemVerifyRaw keccak256 (bundle.fields p) p.proof bundle.merkleRoot)
    return some {
      address := p.address
      effectiveWeight := p.effectiveWeight
      entitlement := p.entitlement
      leaf := p.leaf
      proof := p.proof
      merkleRoot := bundle.merkleRoot
      verified }

def aggregateView (snapshot : CanonicalSnapshot) : AggregateView where
  chainId := snapshot.chainId
  snapshotBlock := snapshot.snapshotBlock
  snapshotBlockHash := snapshot.snapshotBlockHash
  merkleRoot := snapshot.merkleRoot
  distributionAsset := snapshot.distributionAsset
  distributionAmount := snapshot.distributionAmount
  entitlementTotal := snapshot.entitlementTotal
  dust := snapshot.dust
  includedParticipantCount := snapshot.includedParticipantCount
  publicationStatus := "NOT PUBLISHED — NOT AUTHORIZED"

/-- What is shown of an entry. -/
def ParticipantEntitlement.view (p : ParticipantEntitlement) (merkleRoot : Bytes32)
    (verified : Bool) : ParticipantView :=
  ⟨p.address,p.effectiveWeight,p.entitlement,p.leaf,p.proof,merkleRoot,verified⟩

theorem lookupParticipant_found {keccak256 : Hash} {bundle : ProofBundle} {address t : Text}
    {p : ParticipantEntitlement} {verified : Bool} (hnormal : normalize address "address" = .ok t)
    (hfind : (bundle.participants.find? fun p => p.address = t) = some p)
    (hverified : viemVerifyRaw keccak256 (bundle.fields p) p.proof bundle.merkleRoot =
      some verified) :
    lookupParticipant keccak256 bundle address =
      .ok (some (p.view bundle.merkleRoot verified)) := by
  rw [lookupParticipant,hnormal]
  simp only [ok_bind]
  rw [hfind]
  simp only [hverified]
  rfl

/-! ## What a run leaves in the bundle -/

section Bundle

variable {T : Type} {S : StandardMerkleTree T} {keccak256 : Hash} {reader : ChainReader}
  {req : SnapshotRequest} {result : SnapshotRunResult} {keccakOfCanonical : Artifact → Bytes32}
  {manager asset : Text} {root : Bytes32}

/-- The entry of a bundle for an entitled account. -/
structure Entry (keccak256 : Hash) (req : SnapshotRequest) (manager asset : Text) (root : Bytes32)
    (e : Entitled) (p : ParticipantEntitlement) : Prop where
  address : p.address = e.address
  effectiveWeight : p.effectiveWeight = toString10 e.weight
  amount_nonneg : 0 ≤ e.amount
  entitlement : p.entitlement = toString10 e.amount
  verified : viemVerifyRaw keccak256 (fieldsOf req manager asset e) p.proof root = some true

theorem prove_entry {tree : T} {e : Entitled} {i : ℕ} {p : ParticipantEntitlement}
    (h : prove S keccak256 req manager asset tree e i = .ok p) :
    Entry keccak256 req manager asset (S.root tree) e p := by
  simp only [prove,decimal,bind_eq_ok,orRevert_eq_ok,revertIf_eq_ok,mapError_eq_ok,
    toDecimalString_eq_ok,exists_const,pure_eq_ok] at h
  obtain ⟨leaf,-,proof,-,verified,hverified,htrue,weight,⟨-,rfl⟩,amount,⟨hamount,rfl⟩,rfl⟩ := h
  rw [Bool.not_eq_false] at htrue
  exact ⟨rfl,rfl,hamount,rfl,htrue ▸ hverified⟩

theorem settle_entries {ts : ℤ} {candidates : List Text} {s : Settlement}
    (h : settle S keccak256 reader req manager asset ts candidates = .ok s) :
    s.weighing.totalWeight ≠ 0 ∧
      List.Forall₂ (Entry keccak256 req manager asset s.root) s.entitled s.withProofs := by
  simp only [settle,bind_eq_ok,orRevert_eq_ok,revertIf_eq_ok,mapM_eq_ok,exists_const,
    pure_eq_ok] at h
  obtain ⟨weighing,-,hnonzero,entitled,-,-,-,tree,-,withProofs,hproved,-,-,rfl⟩ := h
  rw [not_or] at hnonzero
  refine ⟨hnonzero.2,?_⟩
  have hfst : entitled.zipIdx.map Prod.fst = entitled := List.zipIdx_map_fst 0 entitled
  rw [← hfst,List.forall₂_map_left_iff]
  exact hproved.imp fun _ _ => prove_entry

/-- What the consumer reads of a run's artifacts. -/
structure Consumed (S : StandardMerkleTree T) (keccak256 : Hash) (reader : ChainReader)
    (req : SnapshotRequest) (result : SnapshotRunResult) (manager asset : Address)
    (header : Header) (records : List LockCreatedRecord) (enumeration : EnumerationResult)
    (s : Settlement) : Prop where
  pinned : reader.block req.snapshotBlock = some (some header)
  created : reader.lockCreated req.enumerationStartBlock req.snapshotBlock = some records
  enumerated : enumerateCandidates records req.snapshotBlock = .ok enumeration
  settled : Settled S keccak256 reader req (addressText manager) (addressText asset)
    header.timestamp enumeration.candidates s
  total_ne_zero : s.weighing.totalWeight ≠ 0
  entries : List.Forall₂ (Entry keccak256 req (addressText manager) (addressText asset) s.root)
    s.entitled s.withProofs
  bundle : result.proofBundle = {
    chainId := toString10 req.chainId
    cycleId := toString10 req.cycleId
    claimManager := addressText manager
    distributionAsset := addressText asset
    merkleRoot := s.root
    canonicalSnapshotDigest := result.canonicalSnapshotDigest
    participants := s.withProofs }
  positive : 0 < req.chainId ∧ 0 < req.cycleId ∧ 0 < req.distributionAmount
  totalEffectiveWeight : result.snapshot.totalEffectiveWeight = toString10 s.weighing.totalWeight
  aggregates : result.snapshot.merkleRoot = s.root ∧
    result.snapshot.distributionAmount = toString10 req.distributionAmount ∧
    result.snapshot.entitlementTotal = toString10 (entitlementTotal s.entitled) ∧
    result.snapshot.dust = toString10 (req.distributionAmount-entitlementTotal s.entitled)

theorem run_consumed
    (h : runSnapshotPipeline S keccak256 keccakOfCanonical reader req = .ok result) :
    ∃ manager asset header records enumeration s,
      Consumed S keccak256 reader req result manager asset header records enumeration s := by
  simp only [runSnapshotPipeline,bind_eq_ok,orRevert_eq_ok,normalize_eq_ok] at h
  obtain ⟨_,hshape,_,-,_,⟨manager,-,rfl⟩,_,⟨asset,-,rfl⟩,⟨header,synced⟩,hchain,records,
    hrecords,_,-,enumeration,henumeration,s,hsettle,digests,-,hassemble⟩ := h
  obtain ⟨hheader,-⟩ := checkChain_ok hchain
  obtain ⟨hnonzero,hentries⟩ := settle_entries hsettle
  simp only [validateRequestShape,bind_eq_ok,revertIf_eq_ok,exists_const] at hshape
  simp only [assemble,decimal,bind_eq_ok,mapError_eq_ok,toDecimalString_eq_ok,orRevert_eq_ok,
    pure_eq_ok] at hassemble
  obtain ⟨_,⟨-,rfl⟩,_,⟨-,rfl⟩,_,⟨-,rfl⟩,arguments,-,rfl⟩ := hassemble
  exact ⟨manager,asset,header,records,enumeration,s,hheader,hrecords,henumeration,
    settle_ok hsettle,hnonzero,hentries,rfl,⟨by omega,by omega,by omega⟩,rfl,rfl,rfl,rfl,rfl⟩

/-- The floor of an account's share in what is distributed. -/
def shareIn (reader : ChainReader) (req : SnapshotRequest) (ts totalWeight : ℤ) (a : Address) : ℤ :=
  (req.distributionAmount*weightOf reader ts req.snapshotBlock (addressText a)).tdiv totalWeight

section Lookup

variable {a : Address} {manager asset : Address} {header : Header}
  {records : List LockCreatedRecord} {enumeration : EnumerationResult} {s : Settlement}

/-- The entitlement of an account. -/
def entitledAs (reader : ChainReader) (req : SnapshotRequest) (ts totalWeight : ℤ) (a : Address) :
    Entitled :=
  ⟨addressText a,weightOf reader ts req.snapshotBlock (addressText a),
    shareIn reader req ts totalWeight a⟩

/-- Entitled are the announced accounts whose share is not zero, and to just that share. -/
theorem Consumed.mem_entitled (h : Consumed S keccak256 reader req result manager asset header
    records enumeration s) {e : Entitled} : e ∈ s.entitled ↔
      ∃ a, Announces req.snapshotBlock records a ∧
        shareIn reader req header.timestamp s.weighing.totalWeight a ≠ 0 ∧
        e = entitledAs reader req header.timestamp s.weighing.totalWeight a := by
  obtain ⟨-,hmem⟩ := enumerateCandidates_ok h.enumerated
  have hsettled := h.settled
  have hweight : ∀ a, Announces req.snapshotBlock records a →
      entitledOf req.distributionAmount s.weighing.totalWeight
        (rowOf reader header.timestamp req.snapshotBlock (addressText a)) =
        entitledAs reader req header.timestamp s.weighing.totalWeight a := by
    intro a ha
    have hnonneg := (hsettled.readable _ ((hmem _).2 ⟨a,ha,rfl⟩)).weight_nonneg
    simp only [entitledOf,rowOf,bigInt_toString10 hnonneg,entitledAs,shareIn]
  rw [hsettled.entitled,hsettled.participants,List.mem_filter,List.map_map,List.mem_map,
    decide_eq_true_eq]
  constructor
  · rintro ⟨⟨t,ht,rfl⟩,hne⟩
    obtain ⟨a,ha,rfl⟩ := (hmem t).1 (List.mem_filter.1 ht).1
    rw [Function.comp_apply,hweight a ha] at hne ⊢
    exact ⟨a,ha,hne,rfl⟩
  · rintro ⟨a,ha,hne,rfl⟩
    refine ⟨⟨addressText a,List.mem_filter.2 ⟨(hmem _).2 ⟨a,ha,rfl⟩,decide_eq_true ?_⟩,
      hweight a ha⟩,hne⟩
    intro hzero
    rw [shareIn,hzero,mul_zero,Int.zero_tdiv] at hne
    exact hne rfl

/-- The total is of the accounts that announced a lock up to the pinned block. -/
theorem Consumed.total (h : Consumed S keccak256 reader req result manager asset header records
    enumeration s) : ∃ accounts : Finset Address,
      (∀ a, a ∈ accounts ↔ Announces req.snapshotBlock records a) ∧
      s.weighing.totalWeight =
        ∑ a ∈ accounts, weightOf reader header.timestamp req.snapshotBlock (addressText a) := by
  obtain ⟨accounts,haccounts,hdistinct,hmem⟩ := enumerateCandidates_accounts h.enumerated
  refine ⟨accounts.toFinset,fun a => List.mem_toFinset.trans (hmem a),?_⟩
  rw [h.settled.totalWeight,haccounts,List.map_map,List.sum_toFinset _ hdistinct]
  rfl

theorem Consumed.fields (h : Consumed S keccak256 reader req result manager asset header records
    enumeration s) {e : Entitled} {p : ParticipantEntitlement}
    (hp : Entry keccak256 req (addressText manager) (addressText asset) s.root e p) :
    result.proofBundle.fields p = fieldsOf req (addressText manager) (addressText asset) e := by
  obtain ⟨hchain,hcycle,-⟩ := h.positive
  rw [ProofBundle.fields,h.bundle]
  simp only [hp.address,hp.entitlement,bigInt_toString10 hp.amount_nonneg,
    bigInt_toString10 hchain.le,bigInt_toString10 hcycle.le,fieldsOf]

/-- What a participant is shown. -/
structure ShownTo (result : SnapshotRunResult) (a : Address) (weight share : ℤ)
    (view : ParticipantView) : Prop where
  address : view.address = addressText a
  effectiveWeight : view.effectiveWeight = toString10 weight
  entitlement : view.entitlement = toString10 share
  verified : view.verified = true
  merkleRoot : view.merkleRoot = result.snapshot.merkleRoot
  listed : ∃ p ∈ result.proofBundle.participants, p.address = view.address ∧
    p.entitlement = view.entitlement ∧ p.proof = view.proof

theorem Consumed.lookup_none (h : Consumed S keccak256 reader req result manager asset header
    records enumeration s) {text : Text} (ha : addressOf text = some a)
    (hnot : Announces req.snapshotBlock records a →
      shareIn reader req header.timestamp s.weighing.totalWeight a = 0) :
    lookupParticipant keccak256 result.proofBundle text = .ok none := by
  have hfind : (result.proofBundle.participants.find? fun p => p.address = addressText a) =
      none := by
    refine List.find?_eq_none.2 fun p hp heq => ?_
    rw [h.bundle] at hp
    obtain ⟨e,he,hentry⟩ := Pairing.exists_left h.entries hp
    obtain ⟨b,hb,hne,rfl⟩ := h.mem_entitled.1 he
    obtain rfl := addressText_injective (hentry.address.symm.trans (of_decide_eq_true heq))
    exact hne (hnot hb)
  rw [lookupParticipant,normalize_eq_ok.2 ⟨a,ha,rfl⟩,ok_bind,hfind]
  rfl

theorem Consumed.lookup_some (h : Consumed S keccak256 reader req result manager asset header
    records enumeration s) {text : Text} (ha : addressOf text = some a)
    (hb : Announces req.snapshotBlock records a)
    (hne : shareIn reader req header.timestamp s.weighing.totalWeight a ≠ 0) :
    ∃ view, lookupParticipant keccak256 result.proofBundle text = .ok (some view) ∧
      ShownTo result a (weightOf reader header.timestamp req.snapshotBlock (addressText a))
        (shareIn reader req header.timestamp s.weighing.totalWeight a) view := by
  obtain ⟨p₀,hp₀,hentry₀⟩ := Pairing.exists_right h.entries (h.mem_entitled.2 ⟨a,hb,hne,rfl⟩)
  have hparticipants : result.proofBundle.participants = s.withProofs := by rw [h.bundle]
  obtain ⟨p,hfind⟩ := Option.isSome_iff_exists.1 (List.find?_isSome.2 ⟨p₀,hparticipants ▸ hp₀,
    decide_eq_true hentry₀.address⟩ :
      (result.proofBundle.participants.find? fun p => p.address = addressText a).isSome = true)
  have hmem := List.mem_of_find?_eq_some hfind
  obtain ⟨e,he,hentry⟩ := Pairing.exists_left h.entries (hparticipants ▸ hmem)
  obtain ⟨b,-,-,rfl⟩ := h.mem_entitled.1 he
  have haddress := List.find?_some hfind
  rw [decide_eq_true_eq] at haddress
  obtain rfl := addressText_injective (hentry.address.symm.trans haddress)
  have hverified : viemVerifyRaw keccak256 (result.proofBundle.fields p) p.proof
      result.proofBundle.merkleRoot = some true := by
    rw [h.fields hentry,show result.proofBundle.merkleRoot = s.root by rw [h.bundle]]
    exact hentry.verified
  refine ⟨p.view result.proofBundle.merkleRoot true,
    lookupParticipant_found (normalize_eq_ok.2 ⟨_,ha,rfl⟩) hfind hverified,
    hentry.address,hentry.effectiveWeight,hentry.entitlement,rfl,?_,p,hmem,rfl,rfl,rfl⟩
  exact (show result.proofBundle.merkleRoot = s.root by rw [h.bundle]).trans h.aggregates.1.symm

end Lookup

/-- With what is shown the account is paid: once the cycle of the run is published, in every run
in which only published entitlements are claimed of it. -/
def ClaimedWith (keccak256 : Hash) (req : SnapshotRequest) (result : SnapshotRunResult)
    (a : Address) (view : ParticipantView) : Prop :=
  ∀ (d : Deployment) (token : Address) (p : Publication) (w₀ : World) (txs : List Tx),
    Publishes keccak256 req result d token p → Launched d p w₀ →
    (∀ tx ∈ txs, Follows p.cycleId token (publishedShares result) tx) →
    ∀ w, Machine.run (exec d) w₀ txs = w → p.claimStart ≤ w.timestamp →
      w.timestamp ≤ p.claimDeadline → w.manager.claimed p.cycleId a token = false →
      ∃ amount w', view.entitlement = toString10 amount.val ∧
        claim d w a p.cycleId token amount view.proof = .ok w' ∧
        w.tokens.transfer token d.here a amount.val = .ok w'.tokens

theorem ShownTo.claimed {a : Address} {weight share : ℤ} {view : ParticipantView}
    (hrun : runSnapshotPipeline S keccak256 keccakOfCanonical reader req = .ok result)
    (ha : a ≠ 0) (h : ShownTo result a weight share view) :
    ClaimedWith keccak256 req result a view := by
  intro d token p w₀ txs hpub hlaunched hfollows w hw hstart hend hun
  obtain ⟨hshows,hroster⟩ := publishedShares_roster hrun hpub
  have hopened : Live d p.cycle p.cycleId token req.distributionAmount.toNat
      (publishedShares result) w₀ := hlaunched.opens hpub.assets hpub.fundedAmounts
  have hlive := hopened.run hfollows
  rw [hw] at hlive
  obtain ⟨q,hq,haddress,hentitlement,hproof⟩ := h.listed
  obtain ⟨x,hx,hshown⟩ := Pairing.exists_right hshows hq
  obtain rfl := addressText_injective
    ((h.address.symm.trans haddress.symm).trans hshown.address)
  rw [← hproof,hshown.proof]
  obtain ⟨w',hclaim,htransfer⟩ := hlive.claimOne_succeeds hroster hx ha hstart hend hun
  exact ⟨x.amount,w',hentitlement.symm.trans hshown.entitlement,hclaim,htransfer⟩

/-- Whoever looks an account up in the bundle of a successful run finds its entitlement exactly:
the floor of its share in what is distributed, by the weights read at the pinned block, with a
proof that is verified; and nothing if it announced no lock up to that block or its share is zero.
The shares are of the total weight of all accounts that announced one.  With what it is shown the
account is paid that much, once the cycle is published.  The aggregates are the sum of what can be
looked up, and the rest of the distributed amount. -/
theorem lookup_exact
    (hrun : runSnapshotPipeline S keccak256 keccakOfCanonical reader req = .ok result) :
    ∃ header records totalWeight allotted, ∃ accounts : Finset Address,
      reader.block req.snapshotBlock = some (some header) ∧
      reader.lockCreated req.enumerationStartBlock req.snapshotBlock = some records ∧
      result.snapshot.totalEffectiveWeight = toString10 totalWeight ∧ totalWeight ≠ 0 ∧
      (∀ a, a ∈ accounts ↔ Announces req.snapshotBlock records a) ∧
      totalWeight =
        ∑ a ∈ accounts, weightOf reader header.timestamp req.snapshotBlock (addressText a) ∧
      (∀ text a, addressOf text = some a →
        ((Announces req.snapshotBlock records a →
            shareIn reader req header.timestamp totalWeight a = 0) →
          lookupParticipant keccak256 result.proofBundle text = .ok none) ∧
        (Announces req.snapshotBlock records a →
          shareIn reader req header.timestamp totalWeight a ≠ 0 →
          ∃ view, lookupParticipant keccak256 result.proofBundle text = .ok (some view) ∧
            ShownTo result a
              (weightOf reader header.timestamp req.snapshotBlock (addressText a))
              (shareIn reader req header.timestamp totalWeight a) view ∧
            (a ≠ 0 → ClaimedWith keccak256 req result a view))) ∧
      (aggregateView result.snapshot).entitlementTotal = toString10 allotted ∧
      (aggregateView result.snapshot).dust = toString10 (req.distributionAmount-allotted) ∧
      allotted = (result.proofBundle.participants.map fun p => bigInt p.entitlement).sum := by
  obtain ⟨manager,asset,header,records,enumeration,s,h⟩ := run_consumed hrun
  obtain ⟨accounts,hmem,htotal⟩ := h.total
  refine ⟨header,records,s.weighing.totalWeight,entitlementTotal s.entitled,accounts,h.pinned,
    h.created,h.totalEffectiveWeight,h.total_ne_zero,hmem,htotal,
    fun text a ha => ⟨h.lookup_none ha,fun hb hne => ?_⟩,h.aggregates.2.2.1,h.aggregates.2.2.2,?_⟩
  · obtain ⟨view,hview,hshown⟩ := h.lookup_some ha hb hne
    exact ⟨view,hview,hshown,fun hzero => hshown.claimed hrun hzero⟩
  · rw [h.bundle,entitlementTotal]
    refine congrArg List.sum (Pairing.map_eq h.entries fun e p hentry => ?_)
    rw [hentry.entitlement,bigInt_toString10 hentry.amount_nonneg]

end Bundle

/-- The first account finds its `53` of the eighty that are distributed. -/
theorem sampleRun_lookup : ∃ result view, sampleRun = .ok result ∧
    lookupParticipant toyHash result.proofBundle (addressText 1) = .ok (some view) ∧
    view.entitlement = "53".toList ∧ ClaimedWith toyHash sampleRequest result 1 view := by
  have hsample : ((sampleRun.toOption.bind fun result =>
      (lookupParticipant toyHash result.proofBundle (addressText 1)).toOption).bind fun view =>
        view.map ParticipantView.entitlement) = some "53".toList := by decide +kernel
  simp only [Option.bind_eq_some_iff,Option.map_eq_some_iff,toOption_eq_some] at hsample
  obtain ⟨_,⟨result,hrun,hlookup⟩,view,rfl,hentitlement⟩ := hsample
  obtain ⟨header,records,totalWeight,-,-,-,hrecords,-,-,-,-,hall,-⟩ := lookup_exact hrun
  obtain rfl : [⟨addressText 2,0,6,0⟩,⟨addressText 1,0,7,0⟩] = records := Option.some.inj hrecords
  obtain ⟨hnone,hsome⟩ := hall (addressText 1) 1 (by decide +kernel)
  have hannounced : Announces sampleRequest.snapshotBlock
      [⟨addressText 2,0,6,0⟩,⟨addressText 1,0,7,0⟩] 1 :=
    ⟨⟨addressText 1,0,7,0⟩,by simp,by decide +kernel,by decide +kernel⟩
  by_cases hshare : shareIn sampleReader sampleRequest header.timestamp totalWeight 1 = 0
  · rw [hnone fun _ => hshare] at hlookup
    cases hlookup
  · obtain ⟨view',hview',-,hclaimed⟩ := hsome hannounced hshare
    obtain rfl : view = view' := Option.some.inj (Except.ok.inj (hlookup.symm.trans hview'))
    exact ⟨result,view,hrun,hlookup,hentitlement,hclaimed (by decide)⟩

end SnapshotPipeline
end BpsProtocol
