import BpsProtocol.SnapshotPipeline

/-! What a successful stage of the pipeline computed.
Candidates are the accounts of the records up to the pin, each once.  A weight is the sum of
the reads over an account's lock ids, an entitlement the floor of its share. -/
namespace BpsProtocol
namespace SnapshotPipeline

open Checked Shared HexText LeafEncoding Merkle MerkleProof

/-- A record up to the pin names the account. -/
def Announces (snapshotBlock : ℤ) (records : List LockCreatedRecord) (a : Address) : Prop :=
  ∃ r ∈ records, r.blockNumber ≤ snapshotBlock ∧ addressOf r.account = some a

section Candidates

variable {snapshotBlock : ℤ} {records : List LockCreatedRecord}

theorem normalize_eq_ok {value t : Text} {field : String} :
    normalize value field = .ok t ↔ ∃ a, addressOf value = some a ∧ t = addressText a := by
  rw [normalize,mapError_eq_ok,normalizeAddress_eq_ok]

theorem mem_insertKey {unique : List Text} {key t : Text} :
    t ∈ insertKey unique key ↔ t ∈ unique ∨ t = key := by
  unfold insertKey
  split
  · rename_i h
    constructor
    · exact Or.inl
    · rintro (ht | rfl)
      · exact ht
      · exact h
  · simp

theorem insertKey_nodup {unique : List Text} {key : Text} (h : unique.Nodup) :
    (insertKey unique key).Nodup := by
  unfold insertKey
  split
  · exact h
  · rename_i hkey
    rw [List.nodup_append]
    exact ⟨h,List.nodup_singleton key,fun x hx y hy => by
      rw [List.mem_singleton.1 hy]
      rintro rfl
      exact hkey hx⟩

/-- The scan keeps each account of the records up to the pin, once. -/
theorem scanRecords_ok {i excluded : ℕ} {unique : List Text} {result : List Text × ℕ}
    (h : scanRecords snapshotBlock i unique excluded records = .ok result) :
    (unique.Nodup → result.1.Nodup) ∧
    ∀ t, t ∈ result.1 ↔
      t ∈ unique ∨ ∃ a, Announces snapshotBlock records a ∧ t = addressText a := by
  induction records generalizing i unique excluded with
  | nil =>
    obtain rfl := Except.ok.inj h
    exact ⟨id,fun t => by simp [Announces]⟩
  | cons r rest ih =>
    simp only [scanRecords,bind_eq_ok,revertIf_eq_ok,exists_const] at h
    obtain ⟨-,-,h⟩ := h
    have hsplit (t : Text) : (∃ a, Announces snapshotBlock (r::rest) a ∧ t = addressText a) ↔
        (r.blockNumber ≤ snapshotBlock ∧ ∃ a, addressOf r.account = some a ∧ t = addressText a) ∨
          ∃ a, Announces snapshotBlock rest a ∧ t = addressText a := by
      simp only [Announces,List.mem_cons,exists_eq_or_imp]
      grind
    split at h
    · rename_i hlate
      obtain ⟨hnodup,hmem⟩ := ih h
      refine ⟨hnodup,fun t => ?_⟩
      have hnot : ¬r.blockNumber ≤ snapshotBlock := by omega
      rw [hmem,hsplit]
      simp [hnot]
    · rename_i hpin
      simp only [bind_eq_ok,normalize_eq_ok] at h
      obtain ⟨account,⟨a,ha,rfl⟩,h⟩ := h
      obtain ⟨hnodup,hmem⟩ := ih h
      refine ⟨fun hu => hnodup (insertKey_nodup hu),fun t => ?_⟩
      have hle : r.blockNumber ≤ snapshotBlock := by omega
      rw [hmem,mem_insertKey,hsplit,or_assoc]
      simp [hle,ha]

theorem sortCandidates_perm (unique : List Text) : (sortCandidates unique).Perm unique :=
  List.perm_insertionSort _ _

/-- The candidates are the announced accounts in canonical form, each once. -/
theorem enumerateCandidates_ok {e : EnumerationResult}
    (h : enumerateCandidates records snapshotBlock = .ok e) : e.candidates.Nodup ∧
    ∀ t, t ∈ e.candidates ↔ ∃ a, Announces snapshotBlock records a ∧ t = addressText a := by
  simp only [enumerateCandidates,bind_eq_ok,pure_eq_ok] at h
  obtain ⟨⟨unique,excluded⟩,hscan,rfl⟩ := h
  obtain ⟨hnodup,hmem⟩ := scanRecords_ok hscan
  have hperm := sortCandidates_perm unique
  refine ⟨hperm.nodup_iff.2 (hnodup List.nodup_nil),fun t => ?_⟩
  rw [hperm.mem_iff]
  simpa using hmem t

/-- The candidates are the texts of the announced accounts, each once. -/
theorem enumerateCandidates_accounts {e : EnumerationResult}
    (h : enumerateCandidates records snapshotBlock = .ok e) :
    ∃ accounts : List Address, e.candidates = accounts.map addressText ∧ accounts.Nodup ∧
      ∀ a, a ∈ accounts ↔ Announces snapshotBlock records a := by
  obtain ⟨hnodup,hmem⟩ := enumerateCandidates_ok h
  obtain ⟨accounts,haccounts⟩ : e.candidates ∈ Set.range (List.map addressText) := by
    rw [Set.range_list_map]
    intro t ht
    obtain ⟨a,-,rfl⟩ := (hmem t).1 ht
    exact ⟨a,rfl⟩
  rw [← haccounts] at hnodup hmem
  refine ⟨accounts,haccounts.symm,hnodup.of_map,fun a => ?_⟩
  rw [← List.mem_map_of_injective (fun _ _ => addressText_injective),hmem]
  constructor
  · rintro ⟨b,hb,heq⟩
    rwa [addressText_injective heq]
  · exact fun ha => ⟨a,ha,rfl⟩

end Candidates

section Weights

variable {reader : ChainReader} {ts snapshotBlock : ℤ}

/-- `lockCount` as the pipeline reads it. -/
def countOf (reader : ChainReader) (snapshotBlock : ℤ) (account : Text) : ℤ :=
  (reader.lockCountAt account snapshotBlock).getD 0

/-- The weight that the pipeline reads for an account. -/
def weightOf (reader : ChainReader) (ts snapshotBlock : ℤ) (account : Text) : ℤ :=
  ∑ id ∈ Finset.range (countOf reader snapshotBlock account).toNat,
    (reader.positionWeightAt account id ts snapshotBlock).getD 0

def rowOf (reader : ChainReader) (ts snapshotBlock : ℤ) (account : Text) : ParticipantWeight :=
  ⟨account,toString10 (countOf reader snapshotBlock account),
    toString10 (weightOf reader ts snapshotBlock account)⟩

/-- Every read of the account succeeds and no weight is negative. -/
structure Readable (reader : ChainReader) (ts snapshotBlock : ℤ) (account : Text) : Prop where
  count : ∃ c, reader.lockCountAt account snapshotBlock = some c
  weights : ∀ id < (countOf reader snapshotBlock account).toNat,
    ∃ w, reader.positionWeightAt account id ts snapshotBlock = some w ∧ 0 ≤ w

theorem sumWeights_ok {account : Text} {count : ℕ} (start : ℕ) {weight total : ℤ}
    (h : sumWeights reader account ts snapshotBlock count start weight = .ok total) :
    (total = weight+∑ i ∈ Finset.range count,
      (reader.positionWeightAt account (start+i : ℕ) ts snapshotBlock).getD 0) ∧
    ∀ i < count, ∃ w, reader.positionWeightAt account (start+i : ℕ) ts snapshotBlock = some w ∧
      0 ≤ w := by
  induction count generalizing start weight with
  | zero =>
    obtain rfl := Except.ok.inj h
    simp
  | succ count ih =>
    simp only [sumWeights,bind_eq_ok,orRevert_eq_ok,revertIf_eq_ok,exists_const] at h
    obtain ⟨w,hw,hneg,h⟩ := h
    have hcast : (start : ℤ)+1 = ((start+1 : ℕ) : ℤ) := by push_cast; rfl
    rw [hcast] at h
    obtain ⟨hsum,hread⟩ := ih (start+1) h
    refine ⟨?_,fun i hi => ?_⟩
    · rw [hsum,Finset.sum_range_succ']
      simp only [Nat.add_zero,hw,Option.getD_some,Nat.add_right_comm,← Nat.add_assoc]
      ring
    · cases i with
      | zero => exact ⟨w,by simpa using hw,by omega⟩
      | succ i =>
        have := hread i (by omega)
        rwa [show start+1+i = start+(i+1) by omega] at this

theorem Readable.weight_nonneg {account : Text} (h : Readable reader ts snapshotBlock account) :
    0 ≤ weightOf reader ts snapshotBlock account := by
  apply Finset.sum_nonneg
  intro id hid
  obtain ⟨w,hw,hnonneg⟩ := h.weights id (Finset.mem_range.1 hid)
  rw [hw]
  exact hnonneg

/-- What weighing one candidate did. -/
theorem weighAccount_ok {s s' : Weighing} {account : Text}
    (h : weighAccount reader ts snapshotBlock s account = .ok s') :
    Readable reader ts snapshotBlock account ∧
    s'.participants = s.participants ++
      (if weightOf reader ts snapshotBlock account = 0 then []
        else [rowOf reader ts snapshotBlock account]) ∧
    s'.totalWeight = s.totalWeight+weightOf reader ts snapshotBlock account := by
  simp only [weighAccount,bind_eq_ok,orRevert_eq_ok] at h
  obtain ⟨c,hc,weight,hweight,h⟩ := h
  have hcount : countOf reader snapshotBlock account = c := by simp [countOf,hc]
  obtain ⟨hsum,hread⟩ := sumWeights_ok 0 (by exact_mod_cast hweight)
  have hweightOf : weightOf reader ts snapshotBlock account = weight := by
    rw [weightOf,hcount,hsum]
    simp
  have hreadable : Readable reader ts snapshotBlock account :=
    ⟨⟨c,hc⟩,fun id hid => by simpa using hread id (by rwa [hcount] at hid)⟩
  refine ⟨hreadable,?_⟩
  rw [hweightOf]
  split at h
  · rename_i hzero
    obtain rfl := Except.ok.inj h
    simp [hzero]
  · rename_i hne
    simp only [decimal,bind_eq_ok,mapError_eq_ok,toDecimalString_eq_ok,pure_eq_ok] at h
    obtain ⟨count,⟨-,rfl⟩,effective,⟨-,rfl⟩,rfl⟩ := h
    simp [hne,rowOf,hcount,hweightOf]

/-- The participants are the candidates of nonzero weight, the total is the sum of all. -/
theorem weighAll_ok {s s' : Weighing} {candidates : List Text}
    (h : weighAll reader ts snapshotBlock s candidates = .ok s') :
    (∀ account ∈ candidates, Readable reader ts snapshotBlock account) ∧
    s'.participants = s.participants ++
      (candidates.filter (fun a => weightOf reader ts snapshotBlock a ≠ 0)).map
        (rowOf reader ts snapshotBlock) ∧
    s'.totalWeight = s.totalWeight+(candidates.map (weightOf reader ts snapshotBlock)).sum := by
  induction candidates generalizing s with
  | nil =>
    obtain rfl := Except.ok.inj h
    simp
  | cons account rest ih =>
    simp only [weighAll,bind_eq_ok] at h
    obtain ⟨u,hu,h⟩ := h
    obtain ⟨hreadable,hparticipants,htotal⟩ := weighAccount_ok hu
    obtain ⟨hall,hparticipants',htotal'⟩ := ih h
    refine ⟨List.forall_mem_cons.2 ⟨hreadable,hall⟩,?_,?_⟩
    · rw [hparticipants',hparticipants,List.filter_cons]
      split_ifs with hzero hne
      · simp_all
      · simp_all
      · simp_all
      · simp_all
    · rw [htotal',htotal,List.map_cons,List.sum_cons]
      ring

end Weights

section Entitlements

def entitledOf (distributionAmount totalWeight : ℤ) (p : ParticipantWeight) : Entitled where
  address := p.address
  weight := bigInt p.effectiveWeight
  amount := (distributionAmount*bigInt p.effectiveWeight).tdiv totalWeight

/-- Every participant is entitled to the floor of its share; zero shares are left out. -/
theorem entitle_ok {distributionAmount totalWeight : ℤ} {participants : List ParticipantWeight}
    {entitled : List Entitled}
    (h : entitle distributionAmount totalWeight participants = .ok entitled) :
    entitled = (participants.map (entitledOf distributionAmount totalWeight)).filter
      (fun e => e.amount ≠ 0) := by
  induction participants generalizing entitled with
  | nil =>
    obtain rfl := Except.ok.inj h
    rfl
  | cons p rest ih =>
    simp only [entitle,bind_eq_ok,mapError_eq_ok,mulDivFloor_eq_ok,pure_eq_ok] at h
    obtain ⟨amount,⟨-,rfl⟩,rest',hrest,rfl⟩ := h
    rw [List.map_cons,List.filter_cons,← ih hrest]
    by_cases hzero : (distributionAmount*bigInt p.effectiveWeight).tdiv totalWeight = 0
    · simp [entitledOf,hzero]
    · simp [entitledOf,hzero]

variable {T : Type} {S : StandardMerkleTree T} {keccak256 : Hash} {reader : ChainReader}
  {req : SnapshotRequest} {manager asset : Text}

/-- What is published for an entitled account: its amount, and a proof that folds to the root. -/
structure Proved (keccak256 : Hash) (req : SnapshotRequest) (manager asset : Text) (root : Bytes32)
    (e : Entitled) (p : ParticipantEntitlement) : Prop where
  address : p.address = e.address
  amount_nonneg : 0 ≤ e.amount
  entitlement : p.entitlement = toString10 e.amount
  verified : ∃ l, (fieldsOf req manager asset e).leaf = some l ∧
    verify keccak256 p.proof root (l.hash keccak256) = true

theorem prove_ok {tree : T} {e : Entitled} {i : ℕ} {p : ParticipantEntitlement}
    (h : prove S keccak256 req manager asset tree e i = .ok p) :
    Proved keccak256 req manager asset (S.root tree) e p := by
  simp only [prove,decimal,bind_eq_ok,orRevert_eq_ok,revertIf_eq_ok,mapError_eq_ok,
    toDecimalString_eq_ok,exists_const,pure_eq_ok] at h
  obtain ⟨leaf,-,proof,-,verified,hverified,htrue,weight,⟨-,rfl⟩,amount,⟨hamount,rfl⟩,rfl⟩ := h
  refine ⟨rfl,hamount,rfl,?_⟩
  simp only [viemVerifyRaw,Option.bind_eq_bind,Option.bind_eq_some_iff] at hverified
  obtain ⟨hash,hhash,hcheck⟩ := hverified
  obtain ⟨l,hl,rfl⟩ := viemLeafHashRaw_eq_some hhash
  rw [viemProcessProof_eq] at hcheck
  refine ⟨l,hl,(verify_eq_true keccak256).2 ?_⟩
  rw [← Option.some.inj hcheck] at htrue
  simpa using htrue

/-- What the stages from weights to proofs settled. -/
structure Settled (S : StandardMerkleTree T) (keccak256 : Hash) (reader : ChainReader)
    (req : SnapshotRequest) (manager asset : Text) (ts : ℤ) (candidates : List Text)
    (s : Settlement) : Prop where
  readable : ∀ account ∈ candidates, Readable reader ts req.snapshotBlock account
  participants : s.weighing.participants =
    (candidates.filter (fun a => weightOf reader ts req.snapshotBlock a ≠ 0)).map
      (rowOf reader ts req.snapshotBlock)
  totalWeight : s.weighing.totalWeight =
    (candidates.map (weightOf reader ts req.snapshotBlock)).sum
  entitled : s.entitled = (s.weighing.participants.map
    (entitledOf req.distributionAmount s.weighing.totalWeight)).filter (fun e => e.amount ≠ 0)
  covered : entitlementTotal s.entitled ≤ req.distributionAmount
  proved : List.Forall₂ (Proved keccak256 req manager asset s.root) s.entitled s.withProofs

theorem settle_ok {ts : ℤ} {candidates : List Text} {s : Settlement}
    (h : settle S keccak256 reader req manager asset ts candidates = .ok s) :
    Settled S keccak256 reader req manager asset ts candidates s := by
  simp only [settle,bind_eq_ok,orRevert_eq_ok,revertIf_eq_ok,mapM_eq_ok,exists_const,
    pure_eq_ok] at h
  obtain ⟨weighing,hweigh,-,entitled,hentitled,-,hcovered,tree,-,withProofs,hproved,-,-,rfl⟩ := h
  obtain ⟨hreadable,hparticipants,htotal⟩ := weighAll_ok hweigh
  refine ⟨hreadable,by simpa using hparticipants,by simpa using htotal,entitle_ok hentitled,
    Int.not_lt.1 hcovered,?_⟩
  have hfst : entitled.zipIdx.map Prod.fst = entitled := List.zipIdx_map_fst 0 entitled
  rw [← hfst,List.forall₂_map_left_iff]
  exact hproved.imp fun _ _ => prove_ok

variable {keccakOfCanonical : Artifact → Bytes32} {result : SnapshotRunResult}

/-- The publication that a run proposes, and what it shows of its settlement. -/
structure Assembled (req : SnapshotRequest) (asset : Address) (s : Settlement)
    (result : SnapshotRunResult) : Prop where
  participants : result.snapshot.participants = s.weighing.participants
  totalWeight_nonneg : 0 ≤ s.weighing.totalWeight
  totalEffectiveWeight : result.snapshot.totalEffectiveWeight = toString10 s.weighing.totalWeight
  entitlements : result.snapshot.entitlements =
    s.withProofs.map ParticipantEntitlement.toSnapshotEntitlement
  merkleRoot : result.snapshot.merkleRoot = s.root
  bundleRoot : result.proofBundle.merkleRoot = s.root
  bundle : result.proofBundle.participants = s.withProofs
  cycleId : req.cycleId = (result.unsignedPublication.arguments.cycleId.val : ℤ)
  publishedRoot : result.unsignedPublication.arguments.merkleRoot = s.root
  assets : result.unsignedPublication.arguments.assets = [asset]
  fundedAmounts : result.unsignedPublication.arguments.fundedAmounts =
    [req.distributionAmount.toNat]

theorem assemble_ok {vault manager : Text} {asset : Address} {header : Header} {synced : ℤ}
    {candidates : List Text} {s : Settlement} {digests : InputDigests}
    (h : assemble keccak256 keccakOfCanonical req vault manager (addressText asset) header synced
      candidates s digests = .ok result) : Assembled req asset s result := by
  simp only [assemble,decimal,bind_eq_ok,mapError_eq_ok,toDecimalString_eq_ok,orRevert_eq_ok,
    pure_eq_ok] at h
  obtain ⟨_,⟨hnonneg,rfl⟩,_,⟨-,rfl⟩,_,⟨-,rfl⟩,arguments,hencode,rfl⟩ := h
  simp only [encodePublishCycle,uintArgument,Option.bind_eq_bind,Option.bind_eq_some_iff,
    uint256_eq_some,addressOf_addressText,Option.ite_none_right_eq_some] at hencode
  obtain ⟨cycleId,hcycle,start,-,deadline,-,word,-,token,htoken,amount,⟨-,hamount⟩,harguments⟩ :=
    hencode
  obtain rfl := Option.some.inj harguments
  obtain rfl := Option.some.inj htoken
  obtain rfl := Option.some.inj hamount
  exact ⟨rfl,hnonneg,rfl,rfl,rfl,rfl,rfl,hcycle,rfl,rfl,rfl⟩

/-- What a successful run read and settled. -/
structure Ran (S : StandardMerkleTree T) (keccak256 : Hash) (reader : ChainReader)
    (req : SnapshotRequest) (result : SnapshotRunResult) (manager asset : Address)
    (header : Header) (records : List LockCreatedRecord) (enumeration : EnumerationResult)
    (s : Settlement) : Prop where
  amount_pos : 0 < req.distributionAmount
  managerText : addressOf req.claimManager = some manager
  assetText : addressOf req.distributionAsset = some asset
  pinned : reader.block req.snapshotBlock = some (some header)
  codeAtStart : reader.vaultHasCodeAt (req.enumerationStartBlock-1) = some false
  created : reader.lockCreated req.enumerationStartBlock req.snapshotBlock = some records
  enumerated : enumerateCandidates records req.snapshotBlock = .ok enumeration
  settled : Settled S keccak256 reader req (addressText manager) (addressText asset)
    header.timestamp enumeration.candidates s
  assembled : Assembled req asset s result

theorem checkChain_ok {header : Header} {synced : ℤ}
    (h : checkChain reader req = .ok (header,synced)) :
    reader.block req.snapshotBlock = some (some header) ∧
      reader.vaultHasCodeAt (req.enumerationStartBlock-1) = some false := by
  simp only [checkChain,bind_eq_ok,orRevert_eq_ok,revertIf_eq_ok,exists_const,pure_eq_ok] at h
  obtain ⟨_,-,-,found,hfound,header',rfl,-,_,-,-,code,hcode,hfalse,_,-,-,heq⟩ := h
  obtain ⟨rfl,rfl⟩ := Prod.mk.inj heq
  exact ⟨hfound,by simpa [hfalse] using hcode⟩

theorem runSnapshotPipeline_ok
    (h : runSnapshotPipeline S keccak256 keccakOfCanonical reader req = .ok result) :
    ∃ manager asset header records enumeration s,
      Ran S keccak256 reader req result manager asset header records enumeration s := by
  simp only [runSnapshotPipeline,bind_eq_ok,orRevert_eq_ok,normalize_eq_ok] at h
  obtain ⟨_,hshape,_,-,_,⟨manager,hmanager,rfl⟩,_,⟨asset,hasset,rfl⟩,⟨header,synced⟩,hchain,records,
    hrecords,_,-,enumeration,henumeration,s,hsettle,digests,-,hassemble⟩ := h
  obtain ⟨hheader,hcode⟩ := checkChain_ok hchain
  have hpos : 0 < req.distributionAmount := by
    simp only [validateRequestShape,bind_eq_ok,revertIf_eq_ok,exists_const] at hshape
    omega
  exact ⟨manager,asset,header,records,enumeration,s,hpos,hmanager,hasset,hheader,hcode,hrecords,
    henumeration,settle_ok hsettle,assemble_ok hassemble⟩

end Entitlements

end SnapshotPipeline
end BpsProtocol
