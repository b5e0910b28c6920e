import BpsProtocol.Artifacts

/-! Independent verification of emitted artifacts.
Every proof of the wallet proofs is verified against the root that they declare; the
manifest's own hash and its hash of the allocations are computed again. -/
namespace BpsProtocol
namespace IndependentVerify

open IntegerText Shared LeafEncoding MerkleProof ViemVerify Artifacts

structure IndependentProofResult where
  root : Option Text
  proofCount : ℕ
  verified : ℕ
  ok : Bool
  failures : List Text

/-- What every leaf of one artifact shares, and the root that it declares. -/
structure Header where
  root : Text
  chainId : ℤ
  claimManager : Text
  cycleId : ℤ

/-- The counters of the loops. -/
structure Tally where
  proofCount : ℕ
  verified : ℕ
  failures : List Text

def entryFields (h : Header) (wallet : Text) (claim : ProofEntry) (amount : ℤ) : LeafFields :=
  { chainId := h.chainId
    claimManager := h.claimManager
    cycleId := h.cycleId
    wallet := wallet
    asset := claim.asset
    amount := amount }

def verifyEntry (keccak256 : Hash) (h : Header) (wallet : Text) (claim : ProofEntry) :
    Option Bool := do
  let amount ← toBigInt claim.amount
  viemVerifyRaw keccak256 (entryFields h wallet claim amount) claim.proof h.root

def failure (wallet : Text) (claim : ProofEntry) : Text :=
  "proof failed for ".toList ++ wallet ++ " / ".toList ++ claim.asset

def tallyEntry (keccak256 : Hash) (h : Header) (wallet : Text) (t : Tally) (claim : ProofEntry) :
    Option Tally := do
  let ok ← verifyEntry keccak256 h wallet claim
  return if ok then { t with proofCount := t.proofCount+1,verified := t.verified+1 }
    else { t with proofCount := t.proofCount+1,failures := t.failures ++ [failure wallet claim] }

/-- The loop over the claims of one wallet. -/
def tallyClaims (keccak256 : Hash) (h : Header) (wallet : Text) :
    Tally → List ProofEntry → Option Tally
  | t, [] => some t
  | t, claim::claims => do
    let t ← tallyEntry keccak256 h wallet t claim
    tallyClaims keccak256 h wallet t claims

/-- The loop over `Object.keys(wallets)`. -/
def tallyWallets (keccak256 : Hash) (h : Header) :
    Tally → List (Text × List ProofEntry) → Option Tally
  | t, [] => some t
  | t, w::ws => do
    let t ← tallyClaims keccak256 h w.1 t w.2
    tallyWallets keccak256 h t ws

/-- The result for the root `null`. -/
def unpublished (wallets : List (Text × List ProofEntry)) : IndependentProofResult :=
  let failures := if 0 < wallets.length then ["null root but wallets present".toList] else []
  { root := none
    proofCount := 0
    verified := 0
    ok := failures = []
    failures }

/-- No value where the code throws. -/
def independentlyVerifyWalletProofs (keccak256 : Hash) (wp : WalletProofs) :
    Option IndependentProofResult :=
  match wp.merkleRoot with
  | none => some (unpublished wp.wallets)
  | some root => do
    let chainId ← toBigInt wp.chainId
    let cycleId ← toBigInt wp.cycleId
    let h : Header := { root,chainId,claimManager := wp.claimManager,cycleId }
    let t ← tallyWallets keccak256 h ⟨0,0,[]⟩ wp.wallets
    return {
      root := some root
      proofCount := t.proofCount
      verified := t.verified
      ok := t.failures = [] ∧ t.verified = t.proofCount
      failures := t.failures }

/-- The members of a value whose fields are read; `null` has none to read and throws. -/
def members : Json → Option Json.Members
  | .null => none
  | .obj ms => some ms
  | _ => some []

def verifyManifestEnvelope (keccak256 : Hash) (manifest : Json) : Option Bool := do
  let m ← members manifest
  match Json.get "envelopeHash".toList m with
  | some (.str committed) =>
    let body := Json.delete "envelopeHash".toList m
    return keccakOfCanonical keccak256 (.obj body) = committed
  | _ => return false

def verifyAllocationsContentHash (keccak256 : Hash) (manifest allocations : Json) :
    Option Bool := do
  let m ← members manifest
  match Json.get "allocationsContentHash".toList m with
  | some (.str committed) => return keccakOfCanonical keccak256 allocations = committed
  | _ => return false

theorem verifyManifestEnvelope_eq {keccak256 : Hash} {manifest : Json} {m : Json.Members}
    {committed : Text} (hm : members manifest = some m)
    (hget : Json.get "envelopeHash".toList m = some (.str committed)) :
    verifyManifestEnvelope keccak256 manifest = some (decide (keccakOfCanonical keccak256
      (.obj (Json.delete "envelopeHash".toList m)) = committed)) := by
  simp only [verifyManifestEnvelope,hm,hget,Option.bind_eq_bind,Option.bind_some,Option.pure_def]

theorem verifyAllocationsContentHash_eq {keccak256 : Hash} {manifest allocations : Json}
    {m : Json.Members} {committed : Text} (hm : members manifest = some m)
    (hget : Json.get "allocationsContentHash".toList m = some (.str committed)) :
    verifyAllocationsContentHash keccak256 manifest allocations =
      some (decide (keccakOfCanonical keccak256 allocations = committed)) := by
  simp only [verifyAllocationsContentHash,hm,hget,Option.bind_eq_bind,Option.bind_some,
    Option.pure_def]

/-! ## The loops -/

section Loops

variable {keccak256 : Hash} {h : Header}

/-- A loop without a new failure verified every claim. -/
theorem tallyClaims_verified {wallet : Text} {claims : List ProofEntry} {t t' : Tally}
    (ht : tallyClaims keccak256 h wallet t claims = some t') (hnone : t'.failures = []) :
    t.failures = [] ∧ ∀ claim ∈ claims, verifyEntry keccak256 h wallet claim = some true := by
  induction claims generalizing t with
  | nil =>
    cases ht
    exact ⟨hnone,fun claim hmem => absurd hmem List.not_mem_nil⟩
  | cons claim claims ih =>
    simp only [tallyClaims,tallyEntry,Option.bind_eq_bind,Option.bind_eq_some_iff,Option.pure_def,
      Option.some.injEq] at ht
    obtain ⟨t₁,⟨ok,hok,rfl⟩,hrest⟩ := ht
    have hih := ih hrest
    cases ok with
    | true =>
      refine ⟨hih.1,?_⟩
      rw [List.forall_mem_cons]
      exact ⟨hok,hih.2⟩
    | false => exact absurd hih.1 (by simp)

theorem tallyClaims_of_verified {wallet : Text} {claims : List ProofEntry}
    (hall : ∀ claim ∈ claims, verifyEntry keccak256 h wallet claim = some true) (t : Tally) :
    tallyClaims keccak256 h wallet t claims = some
      { t with
        proofCount := t.proofCount+claims.length
        verified := t.verified+claims.length } := by
  induction claims generalizing t with
  | nil => rfl
  | cons claim claims ih =>
    rw [List.forall_mem_cons] at hall
    have hstep : tallyEntry keccak256 h wallet t claim =
        some { t with proofCount := t.proofCount+1,verified := t.verified+1 } := by
      rw [tallyEntry,hall.1]
      rfl
    rw [tallyClaims,hstep]
    change tallyClaims _ _ _ _ _ = _
    rw [ih hall.2,List.length_cons]
    simp only [Nat.add_assoc,Nat.add_comm 1]

theorem tallyWallets_verified {wallets : List (Text × List ProofEntry)} {t t' : Tally}
    (ht : tallyWallets keccak256 h t wallets = some t') (hnone : t'.failures = []) :
    t.failures = [] ∧ ∀ w ∈ wallets, ∀ claim ∈ w.2,
      verifyEntry keccak256 h w.1 claim = some true := by
  induction wallets generalizing t with
  | nil =>
    cases ht
    exact ⟨hnone,fun w hmem => absurd hmem List.not_mem_nil⟩
  | cons w ws ih =>
    simp only [tallyWallets,Option.bind_eq_bind,Option.bind_eq_some_iff] at ht
    obtain ⟨t₁,hclaims,hrest⟩ := ht
    have hih := ih hrest
    have hw := tallyClaims_verified hclaims hih.1
    refine ⟨hw.1,?_⟩
    rw [List.forall_mem_cons]
    exact ⟨hw.2,hih.2⟩

def entryCount (wallets : List (Text × List ProofEntry)) : ℕ :=
  (wallets.map (fun w => w.2.length)).sum

theorem entryCount_cons (w : Text × List ProofEntry) (ws : List (Text × List ProofEntry)) :
    entryCount (w::ws) = w.2.length+entryCount ws := by
  rw [entryCount,List.map_cons,List.sum_cons]
  rfl

theorem tallyWallets_of_verified {wallets : List (Text × List ProofEntry)}
    (hall : ∀ w ∈ wallets, ∀ claim ∈ w.2, verifyEntry keccak256 h w.1 claim = some true)
    (t : Tally) : tallyWallets keccak256 h t wallets = some
      { t with
        proofCount := t.proofCount+entryCount wallets
        verified := t.verified+entryCount wallets } := by
  induction wallets generalizing t with
  | nil => rfl
  | cons w ws ih =>
    rw [List.forall_mem_cons] at hall
    rw [tallyWallets,tallyClaims_of_verified hall.1]
    change tallyWallets _ _ _ _ = _
    rw [ih hall.2,entryCount_cons]
    simp only [Nat.add_assoc]

end Loops

/-- The header that an artifact declares. -/
structure Declares (wp : WalletProofs) (h : Header) : Prop where
  root : wp.merkleRoot = some h.root
  chainId : toBigInt wp.chainId = some h.chainId
  claimManager : wp.claimManager = h.claimManager
  cycleId : toBigInt wp.cycleId = some h.cycleId

/-- An artifact that is found in order declares a root, and every one of its proofs verifies
against it; or it has neither root nor wallets. -/
theorem independentlyVerify_ok {keccak256 : Hash} {wp : WalletProofs}
    {r : IndependentProofResult} (hr : independentlyVerifyWalletProofs keccak256 wp = some r)
    (hok : r.ok = true) : (wp.merkleRoot = none ∧ wp.wallets = []) ∨
      ∃ h, Declares wp h ∧ ∀ w ∈ wp.wallets, ∀ claim ∈ w.2,
        verifyEntry keccak256 h w.1 claim = some true := by
  unfold independentlyVerifyWalletProofs at hr
  split at hr
  · rename_i hroot
    cases hr
    refine .inl ⟨hroot,?_⟩
    cases hw : wp.wallets with
    | nil => rfl
    | cons w ws =>
      rw [hw] at hok
      simp [unpublished] at hok
  · rename_i root hroot
    simp only [Option.bind_eq_bind,Option.bind_eq_some_iff,Option.pure_def,Option.some.injEq] at hr
    obtain ⟨chainId,hchain,cycleId,hcycle,t,ht,rfl⟩ := hr
    have hfailures : t.failures = [] := (of_decide_eq_true hok).1
    exact .inr ⟨⟨root,chainId,wp.claimManager,cycleId⟩,⟨hroot,hchain,rfl,hcycle⟩,
      (tallyWallets_verified ht hfailures).2⟩

/-- Proofs that all verify are all counted. -/
theorem independentlyVerify_of_verified {keccak256 : Hash} {wp : WalletProofs} {h : Header}
    (hd : Declares wp h) (hall : ∀ w ∈ wp.wallets, ∀ claim ∈ w.2,
      verifyEntry keccak256 h w.1 claim = some true) :
    ∃ r, independentlyVerifyWalletProofs keccak256 wp = some r ∧ r.ok = true ∧
      r.proofCount = entryCount wp.wallets := by
  obtain ⟨root,chainId,claimManager,cycleId⟩ := h
  have hmanager : wp.claimManager = claimManager := hd.claimManager
  subst hmanager
  have ht := tallyWallets_of_verified hall ⟨0,0,[]⟩
  rw [independentlyVerifyWalletProofs,hd.root]
  simp only [hd.chainId,hd.cycleId,Option.bind_eq_bind,Option.bind_some,ht,Option.pure_def]
  exact ⟨_,rfl,by simp,by simp⟩

end IndependentVerify
end BpsProtocol
