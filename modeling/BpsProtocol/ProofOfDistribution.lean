import BpsProtocol.IndependentVerify
import BpsProtocol.TwabWeights

/-! `runProofOfDistribution`: from a cycle fixture to its artifacts.
A published result has been verified proof by proof under both implementations, so the
independent verification of its artifacts finds every proof in order. -/
namespace BpsProtocol
namespace ProofOfDistribution

open Checked Mapping IntegerText Shared CycleFixture LeafEncoding MerkleProof Merkle Twab Allocation
  ViemVerify Artifacts IndependentVerify

structure VerificationSummary where
  proofCount : ℕ
  ozVerified : ℕ
  viemVerified : ℕ
  allVerified : Bool

structure ArtifactSet where
  manifest : Artifact Json
  allocations : Artifact Json
  walletProofs : Artifact WalletProofs
  reconciliation : Artifact Json

structure PipelineResult where
  fixture : Fixture
  weights : List WalletWeight
  eligibility : EligibilityResolution
  allocation : AllocationResult
  merkle : Option MerkleResult
  reconciliation : Reconciliation
  verification : VerificationSummary
  artifacts : ArtifactSet

section Pipeline

variable {T : Type} (S : StandardMerkleTree T) (keccak256 : Hash)

/-- The loop of `verifyProofs` with its two counters. -/
def countVerified (cycle : CycleConfig) (root : Bytes32) : ℕ → ℕ → List MerkleLeafEntry →
    Except ProofOfDistributionError (ℕ × ℕ)
  | oz, viem, [] => .ok (oz,viem)
  | oz, viem, entry::rest => do
    let ozOk ← orRevert .library (ozVerify S root cycle entry.entitlement entry.proof)
    let viemOk ← orRevert .library (viemVerify keccak256 cycle entry.entitlement entry.proof root)
    countVerified cycle root (oz+ozOk.toNat) (viem+viemOk.toNat) rest

def verifyProofs (fixture : Fixture) (merkle : Option MerkleResult) :
    Except ProofOfDistributionError VerificationSummary :=
  match merkle with
  | none => .ok { proofCount := 0,ozVerified := 0,viemVerified := 0,allVerified := true }
  | some m => do
    let counts ← countVerified S keccak256 fixture.cycle m.root 0 0 m.entries
    let proofCount := m.entries.length
    let allVerified : Bool := counts.1 = proofCount ∧ counts.2 = proofCount
    revertIf (allVerified = false) .proofVerification
    return { proofCount,ozVerified := counts.1,viemVerified := counts.2,allVerified }

/-- Only a publishable allocation has a tree. -/
def merkleOf (fixture : Fixture) (allocation : AllocationResult) :
    Except ProofOfDistributionError (Option MerkleResult) :=
  if allocation.publishable then do
    let merkle ← buildMerkle S fixture.cycle allocation.entitlements
    return some merkle
  else .ok none

def artifactsOf (fixture : Fixture) (eligibility : EligibilityResolution)
    (allocation : AllocationResult) (merkle : Option MerkleResult)
    (reconciliation : Reconciliation) : ArtifactSet :=
  let allocations := buildAllocations fixture.cycle allocation
  let allocationsContentHash := keccakOfCanonical keccak256 allocations.object
  { manifest :=
      buildManifest keccak256 fixture eligibility allocation merkle allocationsContentHash
    allocations
    walletProofs := buildWalletProofs fixture.cycle merkle allocation
    reconciliation := buildReconciliation fixture.cycle reconciliation merkle }

def runProofOfDistribution (input : RawCycleFixture) :
    Except ProofOfDistributionError PipelineResult := do
  let fixture ← loadCycleFixture input
  let computed ← computeWeights fixture.cycle fixture.epochStartBalances fixture.transfers
    fixture.locks
  let weights := computed.weights
  let eligibility := resolveEligibility fixture.cycle fixture.excludedAddresses
    fixture.eligibility (weightMap weights)
  let allocation ← allocate fixture.cycle fixture.assets eligibility.eligibleWallets
    (weightMap weights) eligibility.totalEffectiveWeight
  let merkle ← merkleOf S fixture allocation
  let verification ← verifyProofs S keccak256 fixture merkle
  let reconciliation ← reconcile allocation
  return {
    fixture,weights,eligibility,allocation,merkle,reconciliation,verification
    artifacts := artifactsOf keccak256 fixture eligibility allocation merkle reconciliation }

end Pipeline

/-! ## Verified proofs -/

section Verified

variable {T : Type} {S : StandardMerkleTree T} {keccak256 : Hash} {cycle : CycleConfig}
  {root : Bytes32}

/-- The counter of the independent verifier grows by at most one for each entry, and by one
for every entry only if each of them verifies. -/
theorem countVerified_viem {entries : List MerkleLeafEntry} {oz viem : ℕ} {counts : ℕ × ℕ}
    (h : countVerified S keccak256 cycle root oz viem entries = .ok counts) :
    counts.2 ≤ viem+entries.length ∧ (counts.2 = viem+entries.length → ∀ entry ∈ entries,
      viemVerify keccak256 cycle entry.entitlement entry.proof root = some true) := by
  induction entries generalizing oz viem with
  | nil =>
    cases h
    exact ⟨Nat.le_refl _,fun _ entry hmem => absurd hmem List.not_mem_nil⟩
  | cons entry rest ih =>
    simp only [countVerified,bind_eq_ok,orRevert_eq_ok] at h
    obtain ⟨ozOk,-,viemOk,hviem,hrest⟩ := h
    obtain ⟨hle,hall⟩ := ih hrest
    rw [List.length_cons]
    cases viemOk with
    | true =>
      rw [Bool.toNat_true] at hle hall
      refine ⟨by omega,fun heq => ?_⟩
      rw [List.forall_mem_cons]
      exact ⟨hviem,hall (by omega)⟩
    | false =>
      rw [Bool.toNat_false] at hle
      exact ⟨by omega,fun heq => by omega⟩

theorem verifyProofs_ok {fixture : Fixture} {m : MerkleResult} {v : VerificationSummary}
    (h : verifyProofs S keccak256 fixture (some m) = .ok v) : ∀ entry ∈ m.entries,
      viemVerify keccak256 fixture.cycle entry.entitlement entry.proof m.root = some true := by
  simp only [verifyProofs,bind_eq_ok,revertIf_eq_ok,exists_const,pure_eq_ok] at h
  obtain ⟨counts,hcounts,hall,-⟩ := h
  have hboth : counts.1 = m.entries.length ∧ counts.2 = m.entries.length := by
    simpa using hall
  exact (countVerified_viem hcounts).2 (by omega)

end Verified

/-! ## The wallet index -/

/-- The index holds the entries of each wallet in their order. -/
theorem foldl_indexEntry (entries : List MerkleLeafEntry)
    (index : Text → Option (List MerkleLeafEntry)) (wallet : Text) :
    (entries.foldl indexEntry index wallet).getD [] = (index wallet).getD [] ++
      entries.filter (fun e => e.entitlement.wallet = wallet) := by
  induction entries generalizing index with
  | nil => simp
  | cons e rest ih =>
    rw [List.foldl_cons,ih,indexEntry,set_apply]
    by_cases h : wallet = e.entitlement.wallet
    · subst h
      simp
    · rw [if_neg h,List.filter_cons_of_neg (by simpa using fun h' => h h'.symm)]

/-- What a successful `buildMerkle` returns, whatever the package does. -/
structure Indexed (entitlements : List Entitlement) (m : MerkleResult) : Prop where
  entries : m.entries.map MerkleLeafEntry.entitlement = sortEntitlements entitlements
  index : ∀ wallet, (m.walletIndex wallet).getD [] =
    m.entries.filter (fun e => e.entitlement.wallet = wallet)
  nonempty : m.entries ≠ []

theorem buildMerkle_indexed {T : Type} {S : StandardMerkleTree T} {cycle : CycleConfig}
    {entitlements : List Entitlement} {m : MerkleResult}
    (h : buildMerkle S cycle entitlements = .ok m) : Indexed entitlements m := by
  simp only [buildMerkle,bind_eq_ok,revertIf_eq_ok,orRevert_eq_ok,mapM_eq_ok,exists_const,
    pure_eq_ok] at h
  obtain ⟨hne,-,-,t,-,entries,hentries,rfl⟩ := h
  have hmap := map_entitlement_of_entryOf hentries
  refine ⟨hmap,fun wallet => ?_,fun hnil => hne ?_⟩
  · rw [foldl_indexEntry]
    rfl
  · have hlen := congrArg List.length hmap
    rw [show entries = [] from hnil,(sortEntitlements_perm entitlements).length_eq] at hlen
    exact hlen.symm

theorem indexKeys_adds (m : MerkleResult) : (indexKeys m).Nodup ∧
    ∀ wallet, wallet ∈ indexKeys m ↔ ∃ e ∈ m.entries, wallet = e.entitlement.wallet := by
  have h := (addOnce_adds (fun e : MerkleLeafEntry => e.entitlement.wallet)).foldl m.entries []
  refine ⟨h.1 List.nodup_nil,fun wallet => (h.2 wallet).trans ?_⟩
  simp

/-- Distinct keys that cover a list part it into the elements of each. -/
theorem sum_filter_length {α β : Type} [DecidableEq β] (key : α → β) {keys : List β}
    (hnodup : keys.Nodup) (xs : List α) (hmem : ∀ k, k ∈ keys ↔ ∃ x ∈ xs, k = key x) :
    (keys.map (fun k => (xs.filter (fun x => key x = k)).length)).sum = xs.length := by
  have hcount : ∀ k, (xs.filter (fun x => key x = k)).length = (xs.map key).count k := fun k => by
    rw [List.count,List.countP_map,List.countP_eq_length_filter]
    congr 1
  have hperm : keys.Perm (xs.map key).dedup := by
    rw [List.perm_ext_iff_of_nodup hnodup (List.nodup_dedup _)]
    intro k
    rw [hmem,List.mem_dedup,List.mem_map]
    simp only [eq_comm]
  calc (keys.map (fun k => (xs.filter (fun x => key x = k)).length)).sum =
      (keys.map (fun k => (xs.map key).count k)).sum := by simp only [hcount]
    _ = ((xs.map key).dedup.map (fun k => (xs.map key).count k)).sum := (hperm.map _).sum_eq
    _ = (xs.map key).length := List.sum_map_count_dedup_eq_length _
    _ = xs.length := List.length_map _

section Index

variable {entitlements : List Entitlement} {m : MerkleResult} (h : Indexed entitlements m)

include h

theorem Indexed.length_eq : m.entries.length = entitlements.length := by
  rw [← (sortEntitlements_perm entitlements).length_eq,← h.entries,List.length_map]

/-- Each published claim is an entry of its wallet, and each wallet has one. -/
theorem Indexed.mem_wallets {w : Text × List ProofEntry} (hw : w ∈ walletsOf m) :
    w.2 ≠ [] ∧ ∀ claim ∈ w.2, ∃ e ∈ m.entries,
      e.entitlement.wallet = w.1 ∧ claim = proofEntry e := by
  obtain ⟨wallet,hwallet,rfl⟩ := List.mem_map.1 hw
  have hmem : ∀ e, e ∈ sortByAsset ((m.walletIndex wallet).getD []) ↔
      e ∈ m.entries ∧ e.entitlement.wallet = wallet := fun e => by
    rw [sortByAsset,List.mem_insertionSort,h.index,List.mem_filter,decide_eq_true_eq]
  constructor
  · obtain ⟨e,he,rfl⟩ := ((indexKeys_adds m).2 wallet).1 hwallet
    exact List.ne_nil_of_mem (List.mem_map_of_mem ((hmem e).2 ⟨he,rfl⟩))
  · intro claim hclaim
    obtain ⟨e,he,rfl⟩ := List.mem_map.1 hclaim
    exact ⟨e,((hmem e).1 he).1,((hmem e).1 he).2,rfl⟩

/-- Every entry is published under exactly one wallet. -/
theorem Indexed.entryCount_eq : entryCount (walletsOf m) = m.entries.length := by
  rw [← sum_filter_length (fun e : MerkleLeafEntry => e.entitlement.wallet) (indexKeys_adds m).1
    m.entries (indexKeys_adds m).2,entryCount,walletsOf,List.map_map]
  congr 1
  apply List.map_congr_left
  intro wallet _
  simp only [Function.comp_apply,List.length_map]
  rw [sortByAsset,List.length_insertionSort,h.index]

end Index

/-! ## The round trip -/

/-- What a published result was made of. -/
structure Published (keccak256 : Hash) (r : PipelineResult) (m : MerkleResult) : Prop where
  indexed : Indexed r.allocation.entitlements m
  verified : ∀ entry ∈ m.entries, viemVerify keccak256 r.fixture.cycle entry.entitlement
    entry.proof m.root = some true
  artifacts : r.artifacts = artifactsOf keccak256 r.fixture r.eligibility r.allocation (some m)
    r.reconciliation

theorem runProofOfDistribution_published {T : Type} {S : StandardMerkleTree T} {keccak256 : Hash}
    {input : RawCycleFixture} {r : PipelineResult}
    (h : runProofOfDistribution S keccak256 input = .ok r)
    (hpub : r.allocation.publishable = true) : ∃ m, Published keccak256 r m := by
  simp only [runProofOfDistribution,bind_eq_ok,pure_eq_ok] at h
  obtain ⟨fixture,-,computed,-,allocation,-,merkle,hmerkle,verification,hverify,reconciliation,-,
    rfl⟩ := h
  rw [merkleOf,if_pos hpub] at hmerkle
  simp only [bind_eq_ok,pure_eq_ok] at hmerkle
  obtain ⟨m,hbuild,rfl⟩ := hmerkle
  exact ⟨m,buildMerkle_indexed hbuild,verifyProofs_ok hverify,rfl⟩

theorem toBigInt_toString10 (n : ℤ) : toBigInt (toString10 n) = some n := by
  rw [toString10]
  by_cases h : n < 0
  · rw [if_pos h,toBigInt_neg_toDigits]
    congr 1
    omega
  · rw [if_neg h,toBigInt_toDigits]
    congr 1
    omega

/-- The same artifact with its wallets in any order, as in its canonical text. -/
def Reorders (wp object : WalletProofs) : Prop :=
  ∃ ws, ws.Perm object.wallets ∧ wp = { object with wallets := ws }

/-- An object, or what its canonical text is read back as. -/
def Reads (value object : Json) : Prop := value = object ∨ value = Json.canonicalize object

def publishedHeader (cycle : CycleConfig) (m : MerkleResult) : Header :=
  { root := wordText m.root
    chainId := cycle.chainId
    claimManager := cycle.claimManagerAddress
    cycleId := cycle.cycleId }

theorem keccakOfCanonical_canonicalize (keccak256 : Hash) (value : Json) :
    keccakOfCanonical keccak256 (Json.canonicalize value) = keccakOfCanonical keccak256 value := by
  simp only [keccakOfCanonical,canonicalStringify,Json.canonicalize_canonicalize]

namespace Published

variable {keccak256 : Hash} {r : PipelineResult} {m : MerkleResult} {wp : WalletProofs}

theorem declares (h : Published keccak256 r m) (hwp : Reorders wp r.artifacts.walletProofs.object) :
    Declares wp (publishedHeader r.fixture.cycle m) := by
  obtain ⟨ws,-,rfl⟩ := hwp
  rw [h.artifacts]
  exact
    { root := rfl
      chainId := toBigInt_toString10 _
      claimManager := rfl
      cycleId := toBigInt_toString10 _ }

theorem wallets (h : Published keccak256 r m) (hwp : Reorders wp r.artifacts.walletProofs.object) :
    wp.wallets.Perm (walletsOf m) := by
  obtain ⟨ws,hperm,rfl⟩ := hwp
  rw [h.artifacts] at hperm
  exact hperm

/-- The string of every proof is verified as its words were. -/
theorem verifies (h : Published keccak256 r m) (hwp : Reorders wp r.artifacts.walletProofs.object) :
    ∀ w ∈ wp.wallets, ∀ claim ∈ w.2,
      verifyEntry keccak256 (publishedHeader r.fixture.cycle m) w.1 claim = some true := by
  intro w hw claim hclaim
  have hw' := (h.wallets hwp).mem_iff.1 hw
  obtain ⟨e,he,hwallet,rfl⟩ := (h.indexed.mem_wallets hw').2 claim hclaim
  rw [verifyEntry,proofEntry,toBigInt_toString10,← hwallet]
  exact (viemVerifyRaw_wordText keccak256 _ _ _).trans (h.verified e he)

theorem independently_verified (h : Published keccak256 r m)
    (hwp : Reorders wp r.artifacts.walletProofs.object) :
    ∃ result, independentlyVerifyWalletProofs keccak256 wp = some result ∧ result.ok = true ∧
      result.proofCount = r.allocation.entitlements.length := by
  obtain ⟨result,hresult,hok,hcount⟩ :=
    independentlyVerify_of_verified (h.declares hwp) (h.verifies hwp)
  refine ⟨result,hresult,hok,hcount.trans ?_⟩
  rw [entryCount,((h.wallets hwp).map _).sum_eq]
  exact h.indexed.entryCount_eq.trans h.indexed.length_eq

end Published

/-! ## The manifest -/

section Manifest

variable (keccak256 : Hash) (fixture : Fixture) (eligibility : EligibilityResolution)
  (allocation : AllocationResult) (merkle : Option MerkleResult) (contentHash : Text)

def manifestMembers : Json.Members :=
  manifestBody fixture eligibility allocation merkle contentHash ++
    [field "envelopeHash" (.str (keccakOfCanonical keccak256
      (.obj (manifestBody fixture eligibility allocation merkle contentHash))))]

theorem keys_manifestMembers : (Json.keys
    (manifestMembers keccak256 fixture eligibility allocation merkle contentHash)).Nodup := by
  change (["manifestSchemaVersion","leafSchemaVersion","cycleId","chainId","bpsTokenAddress",
    "claimManagerAddress","economicsVersion","rewardPolicyVersion","epoch","exclusions",
    "eligibilityPolicyVersion","termsVersion","restrictedJurisdictionPolicyVersion","totals",
    "assets","allocationRoundingPolicy","reservePolicy","merkleRoot","leafEncoding","leafOrder",
    "allocationsContentHash","claimPeriod","publishable","nonPublishableReason",
    "fictionalDataNotice","onchainClaimNotice","envelopeHash"].map String.toList).Nodup
  decide +kernel

variable {keccak256 fixture eligibility allocation merkle contentHash} {value : Json}

theorem members_of_reads {object : Json.Members} (h : Reads value (.obj object)) :
    ∃ ms, members value = some ms ∧
      (ms = object ∨ ms = Json.sortKeys (Json.canonicalizeMembers object)) := by
  cases h with
  | inl heq =>
    subst heq
    exact ⟨object,rfl,.inl rfl⟩
  | inr heq =>
    subst heq
    exact ⟨_,rfl,.inr rfl⟩

/-- A string member of the object is a member of whatever the object is read back as. -/
theorem get_of_reads {object ms : Json.Members} {key t : Text}
    (hnodup : (Json.keys object).Nodup) (hmem : (key,Json.str t) ∈ object)
    (hms : ms = object ∨ ms = Json.sortKeys (Json.canonicalizeMembers object)) :
    Json.get key ms = some (.str t) := by
  cases hms with
  | inl heq =>
    rw [heq]
    exact (Json.get_eq_some hnodup).2 hmem
  | inr heq =>
    rw [heq]
    exact Json.get_canonical_str hnodup hmem

theorem verifyManifestEnvelope_manifest
    (h : Reads value (.obj (manifestMembers keccak256 fixture eligibility allocation merkle
      contentHash))) : verifyManifestEnvelope keccak256 value = some true := by
  have hnodup := keys_manifestMembers keccak256 fixture eligibility allocation merkle contentHash
  obtain ⟨ms,hms,hcases⟩ := members_of_reads h
  have hget := get_of_reads hnodup
    (List.mem_append_right _ (List.mem_singleton.2 rfl)) hcases
  have hfresh : "envelopeHash".toList ∉
      Json.keys (manifestBody fixture eligibility allocation merkle contentHash) := by
    have hkeys := hnodup
    rw [Json.keys,manifestMembers,List.map_append,List.nodup_append] at hkeys
    exact fun hmem => hkeys.2.2 _ hmem _ (List.mem_singleton.2 rfl) rfl
  have hdelete := Json.delete_append_self hfresh (.str (keccakOfCanonical keccak256
    (.obj (manifestBody fixture eligibility allocation merkle contentHash))))
  have hbody : Json.canonicalize (.obj (Json.delete "envelopeHash".toList ms)) = Json.canonicalize
      (.obj (manifestBody fixture eligibility allocation merkle contentHash)) := by
    cases hcases with
    | inl heq =>
      rw [heq]
      exact congrArg (fun body => Json.canonicalize (.obj body)) hdelete
    | inr heq =>
      rw [heq,Json.canonicalize_delete hnodup]
      exact congrArg (fun body => Json.canonicalize (.obj body)) hdelete
  rw [verifyManifestEnvelope_eq hms hget,Option.some.injEq,decide_eq_true_eq,keccakOfCanonical,
    canonicalStringify,hbody]
  rfl

theorem verifyAllocationsContentHash_manifest {allocations object : Json}
    (h : Reads value (.obj (manifestMembers keccak256 fixture eligibility allocation merkle
      (keccakOfCanonical keccak256 object)))) (ha : Reads allocations object) :
    verifyAllocationsContentHash keccak256 value allocations = some true := by
  have hnodup := keys_manifestMembers keccak256 fixture eligibility allocation merkle
    (keccakOfCanonical keccak256 object)
  obtain ⟨ms,hms,hcases⟩ := members_of_reads h
  have hmem : ("allocationsContentHash".toList,Json.str (keccakOfCanonical keccak256 object)) ∈
      manifestMembers keccak256 fixture eligibility allocation merkle
        (keccakOfCanonical keccak256 object) :=
    List.mem_append_left _ (by simp [manifestBody,field])
  have hget := get_of_reads hnodup hmem hcases
  have hhash : keccakOfCanonical keccak256 allocations = keccakOfCanonical keccak256 object := by
    cases ha with
    | inl heq => rw [heq]
    | inr heq => rw [heq,keccakOfCanonical_canonicalize]
  rw [verifyAllocationsContentHash_eq hms hget,Option.some.injEq,decide_eq_true_eq,hhash]

end Manifest

end ProofOfDistribution
end BpsProtocol
