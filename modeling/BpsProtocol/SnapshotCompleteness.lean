import BpsProtocol.LockAnnouncements
import BpsProtocol.SnapshotSettlement

/-! The snapshot of a history of the locking vault is complete.
The log covers every position, so each account of nonzero weight is a candidate, and the
pinned reads weigh it as the vault does.  How the log is spelled, ordered or repeated does
not matter. -/
namespace BpsProtocol
namespace SnapshotPipeline

open Checked Shared HexText LeafEncoding Merkle
open LockingVault (History accountWeightAt weightAt)

/-- The reader answers for the history of the vault up to the pinned block: the code of the
vault is there from its deployment on, the records hold every `LockCreated` log of the
requested blocks, and the reads are those of the pinned state. -/
structure Honest (here : Address) (reader : ChainReader) (req : SnapshotRequest)
    (w₀ w : LockingVault.World) : Prop where
  history : History here w₀ w
  pin : req.snapshotBlock = w.block.number
  header : ∀ header, reader.block req.snapshotBlock = some (some header) →
    header.timestamp = w.block.timestamp
  code : ∀ block found, reader.vaultHasCodeAt block = some found →
    (found = true ↔ (w₀.block.number : ℤ) ≤ block)
  logs : ∀ records, reader.lockCreated req.enumerationStartBlock req.snapshotBlock = some records →
    ∀ l ∈ w.vault.logs, ∀ a id, l.event.creates a id → req.enumerationStartBlock ≤ l.blockNumber →
    ∃ r ∈ records, addressOf r.account = some a ∧ r.lockId = id ∧ r.blockNumber = l.blockNumber
  lockCount : ∀ account a count, addressOf account = some a →
    reader.lockCountAt account req.snapshotBlock = some count → count = w.vault.lockCount a
  weight : ∀ account a (id ts : ℕ) weight, addressOf account = some a →
    reader.positionWeightAt account id ts req.snapshotBlock = some weight →
    ∃ n, LockingVault.positionWeightAt w.vault a id ts = .ok n ∧ weight = n

section Completeness

variable {here : Address} {reader : ChainReader} {req : SnapshotRequest}
  {w₀ w : LockingVault.World} {records : List LockCreatedRecord}

/-- Every account of nonzero weight is announced by the records. -/
theorem Honest.announces (h : Honest here reader req w₀ w)
    (hcode : reader.vaultHasCodeAt (req.enumerationStartBlock-1) = some false)
    (hrecords : reader.lockCreated req.enumerationStartBlock req.snapshotBlock = some records)
    {a : Address} (hlocked : 0 < w.vault.lockCount a) :
    Announces req.snapshotBlock records a := by
  have hannounced := h.history.announced
  obtain ⟨l,hl,hevent⟩ := hannounced.created a 0 hlocked
  have hwithin := hannounced.within l hl
  -- there was no code before the first requested block, so no lock either
  have hstart : req.enumerationStartBlock ≤ w₀.block.number := by
    have hnone := (h.code _ _ hcode).not.1 (by decide)
    omega
  obtain ⟨r,hr,haccount,-,hblock⟩ := h.logs records hrecords l hl a 0 hevent (by omega)
  have hpin := h.pin
  exact ⟨r,hr,by omega,haccount⟩

/-- The reads of an account answer what the vault holds. -/
theorem Honest.countOf_eq (h : Honest here reader req w₀ w) {a : Address} {ts : ℤ}
    (hreadable : Readable reader ts req.snapshotBlock (addressText a)) :
    countOf reader req.snapshotBlock (addressText a) = w.vault.lockCount a := by
  obtain ⟨count,hcount⟩ := hreadable.count
  rw [countOf,hcount,Option.getD_some]
  exact h.lockCount _ a count (addressOf_addressText a) hcount

theorem Honest.answered (h : Honest here reader req w₀ w) {a : Address} {ts id : ℕ}
    (hreadable : Readable reader ts req.snapshotBlock (addressText a))
    (hid : id < w.vault.lockCount a) :
    ∃ n, LockingVault.positionWeightAt w.vault a id ts = .ok n ∧
      reader.positionWeightAt (addressText a) id ts req.snapshotBlock = some (n : ℤ) := by
  have hcount := h.countOf_eq hreadable
  obtain ⟨weight,hweight,-⟩ := hreadable.weights id (by omega)
  obtain ⟨n,hn,rfl⟩ := h.weight _ a id ts weight (addressOf_addressText a) hweight
  exact ⟨n,hn,hweight⟩

theorem Honest.weightOf_eq (h : Honest here reader req w₀ w) {a : Address} {ts : ℕ}
    (hreadable : Readable reader ts req.snapshotBlock (addressText a)) :
    weightOf reader ts req.snapshotBlock (addressText a) = accountWeightAt w.vault a ts := by
  have hcount := h.countOf_eq hreadable
  rw [weightOf,hcount,Int.toNat_natCast,accountWeightAt,Nat.cast_sum]
  apply Finset.sum_congr rfl
  intro id hid
  obtain ⟨n,hn,hread⟩ := h.answered hreadable (Finset.mem_range.1 hid)
  rw [hread,weightAt,hn]
  rfl

/-- A sum over canonical texts of distinct accounts, of which every other account has none. -/
theorem sum_addressTexts {accounts : List Address} {candidates : List Text} {f : Text → ℤ}
    {g : Address → ℕ} (hcandidates : candidates = accounts.map addressText)
    (hnodup : accounts.Nodup) (hf : ∀ a ∈ accounts, f (addressText a) = g a)
    (hzero : ∀ a, a ∉ accounts → g a = 0) : (candidates.map f).sum = ((∑ a, g a : ℕ) : ℤ) := by
  have hsum : ∑ a ∈ accounts.toFinset, g a = ∑ a, g a :=
    Finset.sum_subset (Finset.subset_univ _) (fun a _ ha => hzero a (by simpa using ha))
  have hmap : (accounts.map addressText).map f = (accounts.map g).map (Nat.cast (R := ℤ)) := by
    rw [List.map_map,List.map_map]
    exact List.map_congr_left hf
  rw [hcandidates,hmap,← Nat.cast_list_sum,← hsum,List.sum_toFinset g hnodup]

/-- What a snapshot says of the pinned state of the vault. -/
structure Complete (w : LockingVault.World) (snapshot : CanonicalSnapshot) : Prop where
  positions : ∀ a id, (w.vault.positions a id).exists_ = true ↔ id < w.vault.lockCount a
  answered : ∀ a id, ∃ n,
    LockingVault.positionWeightAt w.vault a id w.block.timestamp = .ok n
  participants : ∀ a, addressText a ∈ snapshot.participants.map ParticipantWeight.address ↔
    accountWeightAt w.vault a w.block.timestamp ≠ 0
  distinct : (snapshot.participants.map ParticipantWeight.address).Nodup
  weights : ∀ p ∈ snapshot.participants, ∃ a, p.address = addressText a ∧
    p.effectiveWeight = toString10 (accountWeightAt w.vault a w.block.timestamp)
  total : snapshot.totalEffectiveWeight =
    toString10 ((∑ a, accountWeightAt w.vault a w.block.timestamp : ℕ) : ℤ)

variable {T : Type} {S : StandardMerkleTree T} {keccak256 : Hash}
  {keccakOfCanonical : Artifact → Bytes32} {result : SnapshotRunResult}

theorem Honest.complete (h : Honest here reader req w₀ w)
    (hrun : runSnapshotPipeline S keccak256 keccakOfCanonical reader req = .ok result) :
    Complete w result.snapshot := by
  obtain ⟨manager,token,header,records,enumeration,s,hran⟩ := runSnapshotPipeline_ok hrun
  obtain ⟨accounts,haccounts,hdistinct,hmem⟩ := enumerateCandidates_accounts hran.enumerated
  have hsettled := hran.settled
  rw [h.header header hran.pinned] at hsettled
  have hreadable : ∀ a ∈ accounts,
      Readable reader w.block.timestamp req.snapshotBlock (addressText a) := by
    intro a ha
    apply hsettled.readable
    rw [haccounts]
    exact List.mem_map_of_mem ha
  have hlocked : ∀ a, 0 < w.vault.lockCount a → a ∈ accounts := fun a hpos =>
    (hmem a).2 (h.announces hran.codeAtStart hran.created hpos)
  have hzero : ∀ a, a ∉ accounts → accountWeightAt w.vault a w.block.timestamp = 0 := by
    intro a ha
    have hnone : w.vault.lockCount a = 0 := by
      by_contra hne
      exact ha (hlocked a (Nat.pos_of_ne_zero hne))
    simp [accountWeightAt,hnone]
  have hparticipants : result.snapshot.participants = (accounts.filter (fun a =>
      accountWeightAt w.vault a w.block.timestamp ≠ 0)).map (fun a =>
        rowOf reader w.block.timestamp req.snapshotBlock (addressText a)) := by
    rw [hran.assembled.participants,hsettled.participants,haccounts,List.filter_map,List.map_map]
    congr 1
    apply List.filter_congr
    intro a ha
    simp [h.weightOf_eq (hreadable a ha)]
  have haddresses : result.snapshot.participants.map ParticipantWeight.address =
      (accounts.filter (fun a => accountWeightAt w.vault a w.block.timestamp ≠ 0)).map
        addressText := by
    rw [hparticipants,List.map_map]
    rfl
  have hsolvent := h.history.solvent
  refine ⟨hsolvent.exists_iff,?_,?_,?_,?_,?_⟩
  · intro a id
    by_cases hid : id < w.vault.lockCount a
    · obtain ⟨n,hn,-⟩ := h.answered (hreadable a (hlocked a (by omega))) hid
      exact ⟨n,hn⟩
    · have hunset : (w.vault.positions a id).exists_ = false := by
        rw [← Bool.not_eq_true,hsolvent.exists_iff]
        exact hid
      exact ⟨0,LockingVault.positionWeightAt_unset hunset⟩
  · intro a
    rw [haddresses,List.mem_map_of_injective (fun _ _ => addressText_injective),List.mem_filter]
    simp only [ne_eq,decide_not,Bool.not_eq_true',decide_eq_false_iff_not,and_iff_right_iff_imp]
    intro hne
    by_contra ha
    exact hne (hzero a ha)
  · rw [haddresses]
    exact (hdistinct.filter _).map (fun _ _ => addressText_injective)
  · intro p hp
    rw [hparticipants,List.mem_map] at hp
    obtain ⟨a,ha,rfl⟩ := hp
    refine ⟨a,rfl,?_⟩
    rw [rowOf,h.weightOf_eq (hreadable a (List.mem_of_mem_filter ha))]
  · rw [hran.assembled.totalEffectiveWeight,hsettled.totalWeight]
    rw [sum_addressTexts haccounts hdistinct
      (fun a ha => h.weightOf_eq (hreadable a ha)) hzero]

end Completeness

section Variants

variable {snapshotBlock : ℤ} {records records' : List LockCreatedRecord}

/-- The record spells this log. -/
def LockCreatedRecord.Spells (r : LockCreatedRecord) (a : Address) (lockId blockNumber : ℤ)
    (logIndex : ℕ) : Prop :=
  addressOf r.account = some a ∧ r.lockId = lockId ∧ r.blockNumber = blockNumber ∧
    r.logIndex = logIndex

/-- The same logs up to the pin, in any order, spelling and multiplicity, and any later ones. -/
structure Variant (snapshotBlock : ℤ) (records records' : List LockCreatedRecord) : Prop where
  wellFormed : ∀ r ∈ records', isHexAddress r.account = true ∧ 0 ≤ r.blockNumber ∧ 0 ≤ r.lockId
  same : ∀ a lockId blockNumber logIndex, blockNumber ≤ snapshotBlock →
    ((∃ r ∈ records, r.Spells a lockId blockNumber logIndex) ↔
      ∃ r ∈ records', r.Spells a lockId blockNumber logIndex)

theorem Variant.announces (h : Variant snapshotBlock records records') (a : Address) :
    Announces snapshotBlock records a ↔ Announces snapshotBlock records' a := by
  constructor
  · rintro ⟨r,hr,hpin,haccount⟩
    obtain ⟨r',hr',haccount',-,hblock,-⟩ :=
      (h.same a r.lockId r.blockNumber r.logIndex hpin).1 ⟨r,hr,haccount,rfl,rfl,rfl⟩
    exact ⟨r',hr',by omega,haccount'⟩
  · rintro ⟨r,hr,hpin,haccount⟩
    obtain ⟨r',hr',haccount',-,hblock,-⟩ :=
      (h.same a r.lockId r.blockNumber r.logIndex hpin).2 ⟨r,hr,haccount,rfl,rfl,rfl⟩
    exact ⟨r',hr',by omega,haccount'⟩

theorem normalize_succeeds {value : Text} (field : String) (h : isHexAddress value = true) :
    ∃ t, normalize value field = .ok t := by
  obtain ⟨a,ha⟩ : ∃ a, addressOf value = some a := by simp [addressOf,h]
  exact ⟨_,normalize_eq_ok.2 ⟨a,ha,rfl⟩⟩

/-- Well-formed records are scanned to the end. -/
theorem scanRecords_succeeds (i : ℕ) (unique : List Text) (excluded : ℕ)
    (h : ∀ r ∈ records, isHexAddress r.account = true ∧ 0 ≤ r.blockNumber ∧ 0 ≤ r.lockId) :
    ∃ result, scanRecords snapshotBlock i unique excluded records = .ok result := by
  induction records generalizing i unique excluded with
  | nil => exact ⟨_,rfl⟩
  | cons r rest ih =>
    obtain ⟨hhex,hblock,hlock⟩ := h r (by simp)
    have hrest : ∀ r ∈ rest, isHexAddress r.account = true ∧ 0 ≤ r.blockNumber ∧ 0 ≤ r.lockId :=
      fun r' hr' => h r' (List.mem_cons_of_mem _ hr')
    by_cases hlate : snapshotBlock < r.blockNumber
    · obtain ⟨result,hresult⟩ := ih (i+1) unique (excluded+1) hrest
      refine ⟨result,?_⟩
      simp only [scanRecords,bind_eq_ok,revertIf_eq_ok,exists_const,hhex,if_pos hlate]
      exact ⟨by decide,by omega,hresult⟩
    · obtain ⟨t,ht⟩ := normalize_succeeds "address" hhex
      obtain ⟨result,hresult⟩ := ih (i+1) (insertKey unique t) excluded hrest
      refine ⟨result,?_⟩
      simp only [scanRecords,bind_eq_ok,revertIf_eq_ok,exists_const,hhex,if_neg hlate]
      exact ⟨by decide,by omega,t,ht,hresult⟩

theorem sortCandidates_pairwise (unique : List Text) :
    (sortCandidates unique).Pairwise (fun a b => List.le (toLowerCase a) (toLowerCase b)) := by
  have : Std.Total (fun a b : Text => List.le (toLowerCase a) (toLowerCase b)) :=
    ⟨fun a b => List.le_total (toLowerCase a) (toLowerCase b)⟩
  have : IsTrans Text (fun a b => List.le (toLowerCase a) (toLowerCase b)) :=
    ⟨fun _ _ _ hab hbc => List.le_trans hab hbc⟩
  exact List.pairwise_insertionSort _ unique

/-- Canonical texts are sorted in one way. -/
theorem sortCandidates_eq {unique unique' : List Text} (hperm : unique.Perm unique')
    (hcanonical : ∀ t ∈ unique, ∃ a, t = addressText a) :
    sortCandidates unique = sortCandidates unique' := by
  have hperm' : (sortCandidates unique).Perm (sortCandidates unique') :=
    ((sortCandidates_perm unique).trans hperm).trans (sortCandidates_perm unique').symm
  refine List.Perm.eq_of_pairwise ?_ (sortCandidates_pairwise _) (sortCandidates_pairwise _) hperm'
  intro t t' ht ht' hle hle'
  obtain ⟨a,rfl⟩ := hcanonical t ((sortCandidates_perm unique).mem_iff.1 ht)
  obtain ⟨b,rfl⟩ := hcanonical t' (hperm.mem_iff.2 ((sortCandidates_perm unique').mem_iff.1 ht'))
  have heq := List.le_antisymm hle hle'
  rwa [toLowerCase_eq_addressText (addressOf_addressText a),
    toLowerCase_eq_addressText (addressOf_addressText b)] at heq

/-- Variants of the records have the same candidates. -/
theorem enumerateCandidates_variant {e : EnumerationResult}
    (h : enumerateCandidates records snapshotBlock = .ok e)
    (hvariant : Variant snapshotBlock records records') :
    ∃ e', enumerateCandidates records' snapshotBlock = .ok e' ∧ e'.candidates = e.candidates := by
  simp only [enumerateCandidates,bind_eq_ok,pure_eq_ok] at h ⊢
  obtain ⟨⟨unique,excluded⟩,hscan,rfl⟩ := h
  obtain ⟨⟨unique',excluded'⟩,hscan'⟩ : ∃ result, scanRecords snapshotBlock 0 [] 0 records' = .ok result :=
    scanRecords_succeeds 0 [] 0 hvariant.wellFormed
  refine ⟨_,⟨_,hscan',rfl⟩,?_⟩
  obtain ⟨hnodup,hmem⟩ := scanRecords_ok hscan
  obtain ⟨hnodup',hmem'⟩ := scanRecords_ok hscan'
  refine (sortCandidates_eq ?_ ?_).symm
  · rw [List.perm_ext_iff_of_nodup (hnodup List.nodup_nil) (hnodup' List.nodup_nil)]
    intro t
    rw [hmem,hmem']
    simp only [hvariant.announces]
  · intro t ht
    obtain hnil | ⟨a,-,rfl⟩ := (hmem t).1 ht
    · exact absurd hnil List.not_mem_nil
    · exact ⟨a,rfl⟩

/-- The reader with other lock records. -/
def ChainReader.returning (reader : ChainReader) (created : List LockCreatedRecord)
    (withdrawn : List LockWithdrawnRecord) : ChainReader :=
  { reader with
    lockCreated := fun _ _ => some created
    lockWithdrawn := fun _ _ => some withdrawn }

variable {reader : ChainReader} {req : SnapshotRequest} {created : List LockCreatedRecord}
  {withdrawn : List LockWithdrawnRecord}

theorem sumWeights_returning {account : Text} {ts : ℤ} (count : ℕ) (lockId weight : ℤ) :
    sumWeights (reader.returning created withdrawn) account ts snapshotBlock count lockId weight =
      sumWeights reader account ts snapshotBlock count lockId weight := by
  induction count generalizing lockId weight with
  | zero => rfl
  | succ count ih =>
    simp only [sumWeights,ih]
    rfl

theorem weighAll_returning {ts : ℤ} (s : Weighing) (candidates : List Text) :
    weighAll (reader.returning created withdrawn) ts snapshotBlock s candidates =
      weighAll reader ts snapshotBlock s candidates := by
  induction candidates generalizing s with
  | nil => rfl
  | cons account rest ih =>
    simp only [weighAll,weighAccount,sumWeights_returning,ih]
    rfl

theorem checkParity_returning {asset : Text} (published : List ParticipantEntitlement) :
    checkParity (reader.returning created withdrawn) req asset published =
      checkParity reader req asset published := by
  induction published with
  | nil => rfl
  | cons p rest ih =>
    simp only [checkParity,ih]
    rfl

variable {T : Type} {S : StandardMerkleTree T} {keccak256 : Hash}
  {keccakOfCanonical : Artifact → Bytes32} {result : SnapshotRunResult}

/-- The settlement does not read the lock records. -/
theorem settle_returning {manager asset : Text} {ts : ℤ} {candidates : List Text} :
    settle S keccak256 (reader.returning created withdrawn) req manager asset ts candidates =
      settle S keccak256 reader req manager asset ts candidates := by
  simp only [settle,weighAll_returning,checkParity_returning]

theorem recordMembers_succeeds {account : Text} (lockId blockNumber : ℤ) (logIndex : ℕ)
    (h : isHexAddress account = true) :
    ∃ members, recordMembers account lockId blockNumber logIndex = .ok members := by
  obtain ⟨t,ht⟩ := normalize_succeeds "address" h
  exact ⟨_,by rw [recordMembers,ht]; rfl⟩

theorem inputDigests_succeeds (vault manager asset : Text)
    (hcreated : ∀ r ∈ created, isHexAddress r.account = true)
    (hwithdrawn : ∀ r ∈ withdrawn, isHexAddress r.account = true) :
    ∃ digests, inputDigests keccakOfCanonical req vault manager asset created withdrawn =
      .ok digests := by
  obtain ⟨createdMembers,hc⟩ :=
    mapM_succeeds (fun r hr => recordMembers_succeeds r.lockId r.blockNumber r.logIndex (hcreated r hr))
  obtain ⟨withdrawnMembers,hw⟩ :=
    mapM_succeeds (fun r hr => recordMembers_succeeds r.lockId r.blockNumber r.logIndex (hwithdrawn r hr))
  exact ⟨_,by rw [inputDigests,hc,hw]; rfl⟩

/-- The published arguments carry the digests, which no check reads. -/
theorem encodePublishCycle_succeeds {asset : Text} {root a b a' b' : Bytes32}
    {p : ClaimManager.Publication}
    (h : encodePublishCycle keccak256 req asset root a b = some p) :
    ∃ p', encodePublishCycle keccak256 req asset root a' b' = some p' := by
  simp only [encodePublishCycle,Option.bind_eq_bind,Option.bind_eq_some_iff] at h ⊢
  obtain ⟨cycleId,hcycle,start,hstart,deadline,hdeadline,word,hword,token,htoken,amount,hamount,-⟩ :=
    h
  exact ⟨_,cycleId,hcycle,start,hstart,deadline,hdeadline,word,hword,token,htoken,amount,hamount,
    rfl⟩

/-- The participants, the entitlements with their proofs, and the root of two runs agree. -/
structure Agrees (result result' : SnapshotRunResult) : Prop where
  participants : result'.snapshot.participants = result.snapshot.participants
  totalEffectiveWeight :
    result'.snapshot.totalEffectiveWeight = result.snapshot.totalEffectiveWeight
  entitlements : result'.snapshot.entitlements = result.snapshot.entitlements
  proofs : result'.proofBundle.participants = result.proofBundle.participants
  merkleRoot : result'.snapshot.merkleRoot = result.snapshot.merkleRoot

theorem assemble_digests {vault manager asset : Text} {header : Header} {synced : ℤ}
    {candidates : List Text} {s : Settlement} {digests : InputDigests} (digests' : InputDigests)
    (h : assemble keccak256 keccakOfCanonical req vault manager asset header synced candidates s
      digests = .ok result) :
    ∃ result', assemble keccak256 keccakOfCanonical req vault manager asset header synced candidates
      s digests' = .ok result' ∧ Agrees result result' := by
  simp only [assemble,bind_eq_ok,orRevert_eq_ok,pure_eq_ok] at h ⊢
  obtain ⟨total,htotal,sum,hsum,dust,hdust,arguments,hencode,rfl⟩ := h
  obtain ⟨arguments',hencode'⟩ := encodePublishCycle_succeeds hencode
  exact ⟨_,⟨total,htotal,sum,hsum,dust,hdust,arguments',hencode',rfl⟩,⟨rfl,rfl,rfl,rfl,rfl⟩⟩

/-- A run on a variant of the records succeeds and agrees with the run on the records. -/
theorem runSnapshotPipeline_variant
    (hrun : runSnapshotPipeline S keccak256 keccakOfCanonical reader req = .ok result)
    (hrecords : reader.lockCreated req.enumerationStartBlock req.snapshotBlock = some records)
    (hvariant : Variant req.snapshotBlock records created)
    (hwithdrawn : ∀ r ∈ withdrawn, isHexAddress r.account = true) :
    ∃ result', runSnapshotPipeline S keccak256 keccakOfCanonical
      (reader.returning created withdrawn) req = .ok result' ∧ Agrees result result' := by
  simp only [runSnapshotPipeline,bind_eq_ok,orRevert_eq_ok] at hrun ⊢
  obtain ⟨u,hshape,vault,hvault,manager,hmanager,asset,hasset,⟨header,synced⟩,hchain,records₀,
    hrecords₀,_,-,enumeration,henumeration,s,hsettle,digests,-,hassemble⟩ := hrun
  obtain rfl := Option.some.inj (hrecords₀.symm.trans hrecords)
  obtain ⟨enumeration',henumeration',hcandidates⟩ :=
    enumerateCandidates_variant henumeration hvariant
  obtain ⟨digests',hdigests⟩ : ∃ digests, inputDigests keccakOfCanonical req vault manager asset
      created withdrawn = .ok digests :=
    inputDigests_succeeds vault manager asset (fun r hr => (hvariant.wellFormed r hr).1) hwithdrawn
  obtain ⟨result',hassemble',hagrees⟩ := assemble_digests digests' hassemble
  refine ⟨result',⟨u,hshape,vault,hvault,manager,hmanager,asset,hasset,(header,synced),hchain,
    created,rfl,withdrawn,rfl,enumeration',henumeration',s,?_,digests',hdigests,?_⟩,hagrees⟩
  · rw [settle_returning,hcandidates]
    exact hsettle
  · rw [hcandidates]
    exact hassemble'

/-- A successful run over a history of the vault snapshots all weights of the pinned state,
and the records of the same logs in any order, spelling and multiplicity, with any later ones,
give the same participants, entitlements and root. -/
theorem snapshot_complete {here : Address} {w₀ w : LockingVault.World}
    (hhonest : Honest here reader req w₀ w)
    (hrun : runSnapshotPipeline S keccak256 keccakOfCanonical reader req = .ok result) :
    Complete w result.snapshot ∧
    ∀ records, reader.lockCreated req.enumerationStartBlock req.snapshotBlock = some records →
      ∀ created withdrawn, Variant req.snapshotBlock records created →
      (∀ r ∈ withdrawn, isHexAddress r.account = true) →
      ∃ result', runSnapshotPipeline S keccak256 keccakOfCanonical
        (reader.returning created withdrawn) req = .ok result' ∧ Agrees result result' :=
  ⟨hhonest.complete hrun,fun _ hrecords _ _ hvariant hwithdrawn =>
    runSnapshotPipeline_variant hrun hrecords hvariant hwithdrawn⟩

end Variants

section Sample

/-- The `LockCreated` logs as records. -/
def lockRecords (logs : List LockingVault.Log) : List LockCreatedRecord :=
  logs.filterMap fun l => match l.event with
    | .lockCreated a lockId _ _ _ _ _ _ => some ⟨addressText a,lockId,l.blockNumber,0⟩
    | _ => none

/-- A node that answers for a history of the vault; the manager at `100` is on chain `1`. -/
def vaultReader (w₀ w : LockingVault.World) : ChainReader where
  chainId := some 1
  block := fun _ => some (some ⟨'0' :: 'x' :: write 64 0,w.block.timestamp⟩)
  vaultHasCodeAt := fun block => some (decide ((w₀.block.number : ℤ) ≤ block))
  lockCreated := fun _ _ => some (lockRecords w.vault.logs)
  lockWithdrawn := fun _ _ => some []
  lockCountAt := fun account _ => (addressOf account).map fun a => (w.vault.lockCount a : ℤ)
  positionWeightAt := fun account lockId ts _ => (addressOf account).bind fun a =>
    (LockingVault.positionWeightAt w.vault a lockId.toNat ts.toNat).toOption.map Nat.cast
  leafFor := fun cycleId wallet asset amount _ =>
    (LeafFields.leaf ⟨1,addressText 100,cycleId,wallet,asset,amount⟩).map
      (fun l => '0' :: 'x' :: write 64 (l.hash MerkleProof.toyHash).val)
  syncedThrough := some w.block.number

/-- Every history has an honest reader. -/
theorem vaultReader_honest {here : Address} {w₀ w : LockingVault.World} {req : SnapshotRequest}
    (h : History here w₀ w) (hpin : req.snapshotBlock = w.block.number) :
    Honest here (vaultReader w₀ w) req w₀ w := by
  refine ⟨h,hpin,?_,?_,?_,?_,?_⟩
  · rintro header ⟨⟩
    rfl
  · rintro block found ⟨⟩
    exact decide_eq_true_iff
  · rintro records ⟨⟩ l hl a id hevent -
    obtain ⟨number,event⟩ := l
    cases event with
    | lockCreated account lockId principal start duration unlock multiplier policy =>
      obtain ⟨rfl,rfl⟩ := hevent
      exact ⟨_,List.mem_filterMap.2 ⟨_,hl,rfl⟩,addressOf_addressText _,rfl,rfl⟩
    | lockWithdrawn _ _ _ _ _ => exact hevent.elim
    | emergencyExitEnabled _ _ => exact hevent.elim
  · intro account a count haccount hcount
    simpa [vaultReader,haccount,eq_comm] using hcount
  · intro account a id ts weight haccount hweight
    simp only [vaultReader,haccount,Option.bind_some,Int.toNat_natCast,Option.map_eq_some_iff] at hweight
    obtain ⟨n,hn,rfl⟩ := hweight
    refine ⟨n,?_,rfl⟩
    cases hanswer : LockingVault.positionWeightAt w.vault a id ts with
    | error e => simp [hanswer,Except.toOption] at hn
    | ok m =>
      rw [hanswer] at hn
      rw [Option.some.inj hn]

def sampleDeployed : LockingVault.World := ⟨⟨5,0⟩,Erc20.Token.empty,.deployed 9⟩

/-- Account `1` locks for a week in the block of the deployment. -/
def samplePinned : LockingVault.World :=
  Machine.run (LockingVault.exec 60) sampleDeployed
    [.token (.mint 2 1 500),.token (.approve 1 60 500),
      .createLock 1 200 LockingVault.duration7d,.newBlock 100]

theorem sample_history : History 60 sampleDeployed samplePinned :=
  ⟨⟨by decide,⟨9,rfl⟩,fun _ => rfl,rfl⟩,⟨_,rfl⟩⟩

def sampleVaultRequest : SnapshotRequest where
  chainId := 1
  lockingVault := addressText 60
  claimManager := addressText 100
  snapshotBlock := 6
  expectedBlockHash := '0' :: 'x' :: write 64 0
  enumerationStartBlock := 5
  distributionAsset := addressText 50
  distributionAmount := 80
  cycleId := 1
  claimStart := 10
  claimDeadline := 20

theorem sample_snapshot : ∃ result,
    runSnapshotPipeline (chainTrees MerkleProof.toyHash) MerkleProof.toyHash (fun _ => 1)
      (vaultReader sampleDeployed samplePinned) sampleVaultRequest = .ok result ∧
    addressText 1 ∈ result.snapshot.participants.map ParticipantWeight.address := by
  have hok : (runSnapshotPipeline (chainTrees MerkleProof.toyHash) MerkleProof.toyHash (fun _ => 1)
    (vaultReader sampleDeployed samplePinned) sampleVaultRequest).isOk = true := by decide +kernel
  obtain ⟨result,hrun⟩ := exists_eq_ok hok
  have hhonest : Honest 60 (vaultReader sampleDeployed samplePinned) sampleVaultRequest
      sampleDeployed samplePinned := vaultReader_honest sample_history (by decide +kernel)
  exact ⟨result,hrun,((snapshot_complete hhonest hrun).1.participants 1).2 (by decide +kernel)⟩

end Sample

end SnapshotPipeline
end BpsProtocol
