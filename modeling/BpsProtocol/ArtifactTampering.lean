import BpsProtocol.ProofOfDistribution

/-! Edits of the wallet proofs that the verifier cannot miss.
An edit replaces one value of the artifact by one that is read differently.  If the hash has
no collision among the byte strings that both verifications hash, the edited artifact does
not pass. -/
namespace BpsProtocol
namespace ArtifactTampering

open Checked HexText IntegerText Shared CycleFixture Twab MerkleProof Merkle Allocation ViemVerify
  Artifacts IndependentVerify ProofOfDistribution
open LeafEncoding hiding sortedPair viemProcessProof viemVerifyRaw

/-! ## Edits -/

inductive Edit
  | merkleRoot (value : Option Text)
  | chainId (value : Text)
  | cycleId (value : Text)
  | claimManager (value : Text)
  | wallet (wallet value : Text)
  | asset (wallet : Text) (i : ℕ) (value : Text)
  | amount (wallet : Text) (i : ℕ) (value : Text)
  | proofElement (wallet : Text) (i k : ℕ) (value : Text)

abbrev Wallets := List (Text × List ProofEntry)

/-- `wallets[wallet][i]` with some of its fields replaced. -/
def editClaim (wallet : Text) (i : ℕ) (f : ProofEntry → ProofEntry) (wallets : Wallets) :
    Wallets :=
  wallets.map (fun w => if w.1 = wallet then (w.1,w.2.modify i f) else w)

/-- `wallets[value] = wallets[wallet]; delete wallets[wallet]` -/
def renameWallet (wallet value : Text) (wallets : Wallets) : Wallets :=
  match wallets.find? (fun w => w.1 = wallet) with
  | none => wallets
  | some found =>
    let rest := wallets.filter (fun w => w.1 ≠ wallet)
    if value ∈ rest.map Prod.fst then
      rest.map (fun w => if w.1 = value then (value,found.2) else w)
    else rest ++ [(value,found.2)]

def Edit.apply (wp : WalletProofs) : Edit → WalletProofs
  | .merkleRoot value => { wp with merkleRoot := value }
  | .chainId value => { wp with chainId := value }
  | .cycleId value => { wp with cycleId := value }
  | .claimManager value => { wp with claimManager := value }
  | .wallet key value => { wp with wallets := renameWallet key value wp.wallets }
  | .asset key i value =>
    { wp with wallets := editClaim key i (fun c => { c with asset := value }) wp.wallets }
  | .amount key i value =>
    { wp with wallets := editClaim key i (fun c => { c with amount := value }) wp.wallets }
  | .proofElement key i k value =>
    { wp with
      wallets := editClaim key i (fun c => { c with proof := c.proof.set k value }) wp.wallets }

/-- The claim is the `i`th one of the wallet. -/
def ClaimAt (wp : WalletProofs) (wallet : Text) (i : ℕ) (claim : ProofEntry) : Prop :=
  ∃ claims, (wallet,claims) ∈ wp.wallets ∧ claims[i]? = some claim

/-- The value is there, and its replacement is read as something else: integers by
`BigInt`, addresses in any case, proof elements as their bytes, the root as it is. -/
def Edit.Changes (wp : WalletProofs) : Edit → Prop
  | .merkleRoot value => value ≠ wp.merkleRoot
  | .chainId value => toBigInt value ≠ toBigInt wp.chainId
  | .cycleId value => toBigInt value ≠ toBigInt wp.cycleId
  | .claimManager value => addressOf value ≠ addressOf wp.claimManager
  | .wallet key value =>
    (∃ claims, (key,claims) ∈ wp.wallets) ∧ addressOf value ≠ addressOf key
  | .asset key i value =>
    ∃ claim, ClaimAt wp key i claim ∧ addressOf value ≠ addressOf claim.asset
  | .amount key i value =>
    ∃ claim, ClaimAt wp key i claim ∧ toBigInt value ≠ toBigInt claim.amount
  | .proofElement key i k value =>
    ∃ claim element, ClaimAt wp key i claim ∧ claim.proof[k]? = some element ∧
      elementBytes value ≠ elementBytes element

/-! ## What a verification hashes -/

/-- The byte strings hashed along a proof, up to where the code throws. -/
def proofPreimages (keccak256 : Hash) : (proof : List Text) → (computed : Bytes32) → List Bytes
  | [], _ => []
  | sibling::rest, computed =>
    (siblingBytes computed sibling).elim []
      (fun bytes => bytes::proofPreimages keccak256 rest (keccak256 bytes))

def entryPreimages (keccak256 : Hash) (h : Header) (wallet : Text) (claim : ProofEntry) :
    List Bytes :=
  match (toBigInt claim.amount).bind (fun amount => (entryFields h wallet claim amount).leaf) with
  | none => []
  | some l => leafPreimages keccak256 l ++ proofPreimages keccak256 claim.proof (l.hash keccak256)

/-- The header of an artifact with a root. -/
def headerOf (wp : WalletProofs) : Option Header := do
  let root ← wp.merkleRoot
  let chainId ← toBigInt wp.chainId
  let cycleId ← toBigInt wp.cycleId
  return { root,chainId,claimManager := wp.claimManager,cycleId }

/-- The byte strings hashed for the leaves and proofs of an artifact. -/
def verifierPreimages (keccak256 : Hash) (wp : WalletProofs) : List Bytes :=
  match headerOf wp with
  | none => []
  | some h => wp.wallets.flatMap (fun w => w.2.flatMap (entryPreimages keccak256 h w.1))

theorem headerOf_eq {wp : WalletProofs} {h : Header} (hd : Declares wp h) :
    headerOf wp = some h := by
  rw [headerOf,hd.root,hd.chainId,hd.cycleId,hd.claimManager]
  rfl

theorem entryPreimages_subset {keccak256 : Hash} {wp : WalletProofs} {h : Header}
    (hd : Declares wp h) {w : Text × List ProofEntry} (hw : w ∈ wp.wallets) {claim : ProofEntry}
    (hclaim : claim ∈ w.2) :
    entryPreimages keccak256 h w.1 claim ⊆ verifierPreimages keccak256 wp := by
  intro b hb
  rw [verifierPreimages,headerOf_eq hd]
  exact List.mem_flatMap.2 ⟨w,hw,List.mem_flatMap.2 ⟨claim,hclaim,hb⟩⟩

theorem collisionFree_subset {keccak256 : Hash} {preimages preimages' : List Bytes}
    (h : CollisionFree keccak256 preimages') (hsub : preimages ⊆ preimages') :
    CollisionFree keccak256 preimages := h.mono fun _ hb => hsub hb

theorem append_subset_append {α : Type} {xs xs' ys ys' : List α} (hx : xs ⊆ xs') (hy : ys ⊆ ys') :
    xs ++ ys ⊆ xs' ++ ys' := by
  intro z hz
  rw [List.mem_append] at hz ⊢
  exact hz.imp (hx ·) (hy ·)

theorem append_subset_cons {α : Type} (x y : α) (xs ys : List α) : xs ++ ys ⊆ x::xs ++ y::ys :=
  append_subset_append (List.subset_cons_self x xs) (List.subset_cons_self y ys)

/-! ## Folds -/

section Folds

variable {keccak256 : Hash}

theorem viemProcessProof_cons {computed : Bytes32} {sibling t : Text} {rest : List Text} :
    viemProcessProof keccak256 (wordText computed) (sibling::rest) = some t ↔
      ∃ bytes, siblingBytes computed sibling = some bytes ∧
        viemProcessProof keccak256 (wordText (keccak256 bytes)) rest = some t := by
  simp only [viemProcessProof,Option.bind_eq_bind,Option.bind_eq_some_iff,hashSibling_eq_some]
  constructor
  · rintro ⟨computed',⟨bytes,hbytes,rfl⟩,hrest⟩
    exact ⟨bytes,hbytes,hrest⟩
  · rintro ⟨bytes,hbytes,hrest⟩
    exact ⟨_,⟨bytes,hbytes,rfl⟩,hrest⟩

theorem viemProcessProof_wordText_cons {computed s : Bytes32} {t : Text} {rest : List Text} :
    viemProcessProof keccak256 (wordText computed) (wordText s::rest) = some t ↔
      viemProcessProof keccak256
        (wordText (keccak256 (LeafEncoding.sortedPair computed s))) rest = some t := by
  rw [viemProcessProof_cons,siblingBytes_wordText]
  constructor
  · rintro ⟨bytes,hbytes,hrest⟩
    rwa [Option.some.inj hbytes]
  · intro hrest
    exact ⟨_,rfl,hrest⟩

theorem proofPreimages_cons {computed : Bytes32} {sibling : Text} {bytes : Bytes}
    (h : siblingBytes computed sibling = some bytes) (rest : List Text) :
    proofPreimages keccak256 (sibling::rest) computed =
      bytes::proofPreimages keccak256 rest (keccak256 bytes) := by
  rw [proofPreimages,h]
  rfl

theorem proofPreimages_wordText_cons (computed s : Bytes32) (rest : List Text) :
    proofPreimages keccak256 (wordText s::rest) computed =
      LeafEncoding.sortedPair computed s::
        proofPreimages keccak256 rest (keccak256 (LeafEncoding.sortedPair computed s)) :=
  proofPreimages_cons (siblingBytes_wordText computed s) rest

/-- One proof leads two hashes to one root only if they are the same. -/
theorem viemProcessProof_injective {a b : Bytes32} {proof : List Bytes32} {t : Text}
    (hfree : CollisionFree keccak256 (proofPreimages keccak256 (proof.map wordText) a ++
      proofPreimages keccak256 (proof.map wordText) b))
    (ha : viemProcessProof keccak256 (wordText a) (proof.map wordText) = some t)
    (hb : viemProcessProof keccak256 (wordText b) (proof.map wordText) = some t) : a = b := by
  induction proof generalizing a b with
  | nil =>
    rw [List.map_nil,viemProcessProof] at ha hb
    exact wordText_injective (Option.some.inj (ha.trans hb.symm))
  | cons s rest ih =>
    rw [List.map_cons,viemProcessProof_wordText_cons] at ha hb
    rw [List.map_cons,proofPreimages_wordText_cons,proofPreimages_wordText_cons] at hfree
    have hnext := ih (collisionFree_subset hfree (append_subset_cons _ _ _ _)) ha hb
    have hpair : LeafEncoding.sortedPair a s = LeafEncoding.sortedPair b s :=
      hfree (List.mem_append_left _ List.mem_cons_self)
        (List.mem_append_right _ List.mem_cons_self) hnext
    cases sortedPair_injective hpair with
    | inl heq => exact (Prod.mk.inj heq).1.symm
    | inr heq =>
      have hswap := Prod.mk.inj heq
      exact (hswap.1.trans hswap.2).symm

/-- An element that reads differently leads to another root. -/
theorem viemProcessProof_element {a : Bytes32} {proof : List Bytes32} {k : ℕ} {s : Bytes32}
    {value t : Text} (hk : proof[k]? = some s) (hvalue : elementBytes value ≠ some (wordBytes s))
    (hfree : CollisionFree keccak256 (proofPreimages keccak256 (proof.map wordText) a ++
      proofPreimages keccak256 ((proof.map wordText).set k value) a))
    (ha : viemProcessProof keccak256 (wordText a) (proof.map wordText) = some t) :
    viemProcessProof keccak256 (wordText a) ((proof.map wordText).set k value) ≠ some t := by
  induction proof generalizing a k with
  | nil => cases hk
  | cons s' rest ih =>
    intro hb
    rw [List.map_cons,viemProcessProof_wordText_cons] at ha
    rw [List.map_cons] at hb hfree
    cases k with
    | zero =>
      obtain rfl : s' = s := Option.some.inj hk
      rw [List.set_cons_zero,viemProcessProof_cons] at hb
      obtain ⟨bytes,hbytes,hb⟩ := hb
      rw [List.set_cons_zero,proofPreimages_wordText_cons,proofPreimages_cons hbytes] at hfree
      have hnext := viemProcessProof_injective
        (collisionFree_subset hfree (append_subset_cons _ _ _ _)) ha hb
      have hpair : LeafEncoding.sortedPair a s' = bytes :=
        hfree (List.mem_append_left _ List.mem_cons_self)
          (List.mem_append_right _ List.mem_cons_self) hnext
      rw [← hpair] at hbytes
      exact hvalue (elementBytes_of_siblingBytes hbytes)
    | succ k =>
      rw [List.set_cons_succ,viemProcessProof_wordText_cons] at hb
      rw [List.set_cons_succ,proofPreimages_wordText_cons,proofPreimages_wordText_cons] at hfree
      exact ih hk (collisionFree_subset hfree (append_subset_cons _ _ _ _)) ha hb

end Folds

/-! ## Verified claims -/

section Verified

variable {keccak256 : Hash} {h h' : Header} {wallet wallet' : Text} {claim claim' : ProofEntry}
  {amount amount' : ℤ} {l l' : Leaf}

/-- What the root was computed from when a claim was verified. -/
structure Folds (keccak256 : Hash) (h : Header) (wallet : Text) (claim : ProofEntry) (amount : ℤ)
    (l : Leaf) : Prop where
  reads : toBigInt claim.amount = some amount
  leaf : (entryFields h wallet claim amount).leaf = some l
  root : viemProcessProof keccak256 (wordText (l.hash keccak256)) claim.proof = some h.root

theorem folds_of_verified (hv : verifyEntry keccak256 h wallet claim = some true) :
    ∃ amount l, Folds keccak256 h wallet claim amount l := by
  simp only [verifyEntry,viemVerifyRaw,Option.bind_eq_bind,Option.bind_eq_some_iff,Option.pure_def,
    Option.some.injEq,decide_eq_true_eq] at hv
  obtain ⟨amount,hamount,leaf,hleaf,computed,hcomputed,rfl⟩ := hv
  obtain ⟨l,hl,rfl⟩ := viemLeafHashRaw_eq_some hleaf
  exact ⟨amount,l,hamount,hl,hcomputed⟩

theorem Folds.preimages (hf : Folds keccak256 h wallet claim amount l) :
    entryPreimages keccak256 h wallet claim = leafPreimages keccak256 l ++
      proofPreimages keccak256 claim.proof (l.hash keccak256) := by
  rw [entryPreimages,hf.reads,Option.bind_some,hf.leaf]

/-- One proof leads to one root from one leaf only. -/
theorem Folds.leaf_unique (hf : Folds keccak256 h wallet claim amount l)
    (hf' : Folds keccak256 h' wallet' claim' amount' l') (hroot : h'.root = h.root)
    (hproof : claim'.proof = claim.proof) {proof : List Bytes32}
    (hwords : claim.proof = proof.map wordText)
    (hfree : CollisionFree keccak256 (entryPreimages keccak256 h wallet claim ++
      entryPreimages keccak256 h' wallet' claim')) : l = l' := by
  have hr := hf.root
  have hr' := hf'.root
  rw [hwords] at hr
  rw [hproof,hwords,hroot] at hr'
  rw [hf.preimages,hf'.preimages,hproof,hwords] at hfree
  have hhash : l.hash keccak256 = l'.hash keccak256 := by
    refine viemProcessProof_injective (collisionFree_subset hfree fun b hb => ?_) hr hr'
    rw [List.mem_append] at hb
    exact List.mem_append.2 (hb.imp (List.mem_append_right _) (List.mem_append_right _))
  exact leaf_eq_of_hash_eq hfree
    (fun b hb => List.mem_append_left _ (List.mem_append_left _ hb))
    (fun b hb => List.mem_append_right _ (List.mem_append_left _ hb)) hhash

/-- The leaves of two claims have the same fields. -/
structure Agrees (h h' : Header) (wallet wallet' : Text) (claim claim' : ProofEntry) : Prop where
  chainId : h'.chainId = h.chainId
  claimManager : addressOf h'.claimManager = addressOf h.claimManager
  cycleId : h'.cycleId = h.cycleId
  wallet : addressOf wallet' = addressOf wallet
  asset : addressOf claim'.asset = addressOf claim.asset
  amount : toBigInt claim'.amount = toBigInt claim.amount

theorem Folds.agrees (hf : Folds keccak256 h wallet claim amount l)
    (hf' : Folds keccak256 h' wallet' claim' amount' l) :
    Agrees h h' wallet wallet' claim claim' := by
  obtain ⟨hchain,hmanager,hcycle,hwallet,hasset,hamount⟩ := leaf_eq_some.1 hf.leaf
  obtain ⟨hchain',hmanager',hcycle',hwallet',hasset',hamount'⟩ := leaf_eq_some.1 hf'.leaf
  exact
    { chainId := hchain'.trans hchain.symm
      claimManager := hmanager'.trans hmanager.symm
      cycleId := hcycle'.trans hcycle.symm
      wallet := hwallet'.trans hwallet.symm
      asset := hasset'.trans hasset.symm
      amount := by
        rw [hf.reads,hf'.reads,show amount' = l.amount.val from hamount',
          show amount = l.amount.val from hamount] }

end Verified

/-! ## Edits of an intact artifact -/

/-- An artifact as it is published. -/
structure Intact (keccak256 : Hash) (wp : WalletProofs) (h : Header) : Prop where
  declares : Declares wp h
  verifies : ∀ w ∈ wp.wallets, ∀ claim ∈ w.2, verifyEntry keccak256 h w.1 claim = some true
  wallets : wp.wallets ≠ []
  claims : ∀ w ∈ wp.wallets, w.2 ≠ []
  proofs : ∀ w ∈ wp.wallets, ∀ claim ∈ w.2, ∃ proof : List Bytes32, claim.proof = proof.map wordText

theorem mem_editClaim {wallet : Text} {i : ℕ} {f : ProofEntry → ProofEntry} {wallets : Wallets}
    {claims : List ProofEntry} {claim : ProofEntry} (hw : (wallet,claims) ∈ wallets)
    (hclaim : claims[i]? = some claim) :
    ∃ claims', (wallet,claims') ∈ editClaim wallet i f wallets ∧ f claim ∈ claims' := by
  refine ⟨claims.modify i f,List.mem_map.2 ⟨(wallet,claims),hw,if_pos rfl⟩,?_⟩
  apply List.mem_of_getElem? (i := i)
  rw [List.getElem?_modify_eq,hclaim]
  rfl

/-- The claims of a renamed wallet stand under its new name. -/
theorem mem_renameWallet {wallet value : Text} {wallets : Wallets} {claims : List ProofEntry}
    (hw : (wallet,claims) ∈ wallets) : ∃ claims', (wallet,claims') ∈ wallets ∧
      (value,claims') ∈ renameWallet wallet value wallets := by
  rw [renameWallet]
  cases hfind : wallets.find? (fun w => w.1 = wallet) with
  | none =>
    have hnot := List.find?_eq_none.1 hfind _ hw
    simp at hnot
  | some found =>
    have hkey : found.1 = wallet := by simpa using List.find?_some hfind
    refine ⟨found.2,?_,?_⟩
    · rw [← hkey]
      exact List.mem_of_find?_eq_some hfind
    · by_cases hvalue : value ∈ (wallets.filter (fun w => w.1 ≠ wallet)).map Prod.fst
      · simp only [if_pos hvalue]
        obtain ⟨w,hmem,hw1⟩ := List.mem_map.1 hvalue
        exact List.mem_map.2 ⟨w,hmem,if_pos hw1⟩
      · simp only [if_neg hvalue]
        exact List.mem_append_right _ (List.mem_singleton.2 rfl)

section Tampering

variable {keccak256 : Hash} {wp wp' : WalletProofs} {h h' : Header}

/-- The first claim of an intact artifact. -/
theorem Intact.exists_claim (hi : Intact keccak256 wp h) :
    ∃ w ∈ wp.wallets, ∃ claim, claim ∈ w.2 := by
  obtain ⟨w,hw⟩ := List.exists_mem_of_ne_nil _ hi.wallets
  exact ⟨w,hw,List.exists_mem_of_ne_nil _ (hi.claims w hw)⟩

theorem Intact.folds (hi : Intact keccak256 wp h) {w : Text × List ProofEntry}
    (hw : w ∈ wp.wallets) {claim : ProofEntry} (hclaim : claim ∈ w.2) :
    ∃ amount l, Folds keccak256 h w.1 claim amount l :=
  folds_of_verified (hi.verifies w hw claim hclaim)

/-- A verified artifact under the same root agrees with an intact one wherever a proof is
the same. -/
theorem Intact.agrees (hi : Intact keccak256 wp h) (hd' : Declares wp' h')
    (hv' : ∀ w ∈ wp'.wallets, ∀ claim ∈ w.2, verifyEntry keccak256 h' w.1 claim = some true)
    (hfree : CollisionFree keccak256
      (verifierPreimages keccak256 wp ++ verifierPreimages keccak256 wp'))
    (hroot : h'.root = h.root) {w w' : Text × List ProofEntry} (hw : w ∈ wp.wallets)
    (hw' : w' ∈ wp'.wallets) {claim claim' : ProofEntry} (hclaim : claim ∈ w.2)
    (hclaim' : claim' ∈ w'.2) (hproof : claim'.proof = claim.proof) :
    Agrees h h' w.1 w'.1 claim claim' := by
  obtain ⟨proof,hwords⟩ := hi.proofs w hw claim hclaim
  obtain ⟨amount,l,hf⟩ := hi.folds hw hclaim
  obtain ⟨amount',l',hf'⟩ := folds_of_verified (hv' w' hw' claim' hclaim')
  have hsame : l = l' := hf.leaf_unique hf' hroot hproof hwords <|
    collisionFree_subset hfree <| append_subset_append
      (entryPreimages_subset hi.declares hw hclaim) (entryPreimages_subset hd' hw' hclaim')
  subst hsame
  exact hf.agrees hf'

/-- The leaf of a claim does not depend on the root and the proof. -/
theorem Folds.leaf_congr {wallet : Text} {claim claim' : ProofEntry} {amount amount' : ℤ}
    {l l' : Leaf} (hf : Folds keccak256 h wallet claim amount l)
    (hf' : Folds keccak256 h' wallet claim' amount' l') (hchain : h'.chainId = h.chainId)
    (hmanager : h'.claimManager = h.claimManager) (hcycle : h'.cycleId = h.cycleId)
    (hasset : claim'.asset = claim.asset) (hamount : claim'.amount = claim.amount) : l' = l := by
  have hreads := hf'.reads
  rw [hamount,hf.reads] at hreads
  have hl := hf'.leaf
  rw [← Option.some.inj hreads,entryFields,hchain,hmanager,hcycle,hasset] at hl
  exact Option.some.inj (hl.symm.trans hf.leaf)

/-- A claim verifies against one root only. -/
theorem Intact.root_unique (hi : Intact keccak256 wp h)
    (hv' : ∀ w ∈ wp'.wallets, ∀ claim ∈ w.2, verifyEntry keccak256 h' w.1 claim = some true)
    (hwallets : wp'.wallets = wp.wallets) (hchain : h'.chainId = h.chainId)
    (hmanager : h'.claimManager = h.claimManager) (hcycle : h'.cycleId = h.cycleId) :
    h'.root = h.root := by
  obtain ⟨w,hw,claim,hclaim⟩ := hi.exists_claim
  obtain ⟨amount,l,hf⟩ := hi.folds hw hclaim
  obtain ⟨amount',l',hf'⟩ := folds_of_verified (hv' w (hwallets ▸ hw) claim hclaim)
  have hsame := hf.leaf_congr hf' hchain hmanager hcycle rfl rfl
  have hr := hf'.root
  rw [hsame,hf.root] at hr
  exact (Option.some.inj hr).symm

/-- A proof element that reads differently does not verify. -/
theorem Intact.element_unique (hi : Intact keccak256 wp h) (hd' : Declares wp' h)
    (hv' : ∀ w ∈ wp'.wallets, ∀ claim ∈ w.2, verifyEntry keccak256 h w.1 claim = some true)
    (hfree : CollisionFree keccak256
      (verifierPreimages keccak256 wp ++ verifierPreimages keccak256 wp'))
    {wallet : Text} {claims claims' : List ProofEntry} {claim : ProofEntry} {k : ℕ}
    {element value : Text} (hw : (wallet,claims) ∈ wp.wallets)
    (hw' : (wallet,claims') ∈ wp'.wallets) (hclaim : claim ∈ claims)
    (hclaim' : { claim with proof := claim.proof.set k value } ∈ claims')
    (hk : claim.proof[k]? = some element) : elementBytes value = elementBytes element := by
  obtain ⟨proof,hwords⟩ := hi.proofs _ hw claim hclaim
  obtain ⟨amount,l,hf⟩ := hi.folds hw hclaim
  obtain ⟨amount',l',hf'⟩ := folds_of_verified (hv' _ hw' _ hclaim')
  obtain rfl : l' = l := hf.leaf_congr hf' rfl rfl rfl rfl rfl
  have hpre := collisionFree_subset hfree <| append_subset_append
    (entryPreimages_subset hi.declares hw hclaim) (entryPreimages_subset hd' hw' hclaim')
  rw [hf.preimages,hf'.preimages,hwords] at hpre
  have hr := hf.root
  have hr' := hf'.root
  rw [hwords,List.getElem?_map,Option.map_eq_some_iff] at hk
  rw [hwords] at hr hr'
  obtain ⟨s,hs,rfl⟩ := hk
  rw [elementBytes_of_siblingBytes (siblingBytes_wordText 0 s)]
  by_contra hne
  exact viemProcessProof_element hs hne (collisionFree_subset hpre <|
    append_subset_append (List.subset_append_right _ _) (List.subset_append_right _ _)) hr hr'

/-- No edit of an intact artifact verifies. -/
theorem Intact.tampered (hi : Intact keccak256 wp h) {edit : Edit} (hchange : edit.Changes wp)
    (hd' : Declares (edit.apply wp) h') (hv' : ∀ w ∈ (edit.apply wp).wallets, ∀ claim ∈ w.2,
      verifyEntry keccak256 h' w.1 claim = some true)
    (hfree : CollisionFree keccak256
      (verifierPreimages keccak256 wp ++ verifierPreimages keccak256 (edit.apply wp))) : False := by
  have hd := hi.declares
  obtain ⟨w,hw,claim,hclaim⟩ := hi.exists_claim
  cases edit with
  | merkleRoot value =>
    have hroot := hi.root_unique hv' rfl (Option.some.inj (hd'.chainId.symm.trans hd.chainId))
      (hd'.claimManager.symm.trans hd.claimManager)
      (Option.some.inj (hd'.cycleId.symm.trans hd.cycleId))
    exact hchange (hd'.root.trans ((congrArg some hroot).trans hd.root.symm))
  | chainId value =>
    have hroot : h'.root = h.root := Option.some.inj (hd'.root.symm.trans hd.root)
    have hagrees := hi.agrees hd' hv' hfree hroot hw hw hclaim hclaim rfl
    exact hchange (hd'.chainId.trans ((congrArg some hagrees.chainId).trans hd.chainId.symm))
  | cycleId value =>
    have hroot : h'.root = h.root := Option.some.inj (hd'.root.symm.trans hd.root)
    have hagrees := hi.agrees hd' hv' hfree hroot hw hw hclaim hclaim rfl
    exact hchange (hd'.cycleId.trans ((congrArg some hagrees.cycleId).trans hd.cycleId.symm))
  | claimManager value =>
    have hroot : h'.root = h.root := Option.some.inj (hd'.root.symm.trans hd.root)
    have hagrees := hi.agrees hd' hv' hfree hroot hw hw hclaim hclaim rfl
    have hmanager := hagrees.claimManager
    rw [← hd'.claimManager,← hd.claimManager] at hmanager
    exact hchange hmanager
  | wallet key value =>
    have hroot : h'.root = h.root := Option.some.inj (hd'.root.symm.trans hd.root)
    obtain ⟨⟨claims,hkey⟩,hne⟩ := hchange
    obtain ⟨claims',hkey,hvalue⟩ := mem_renameWallet hkey
    obtain ⟨claim,hclaim⟩ := List.exists_mem_of_ne_nil _ (hi.claims _ hkey)
    exact hne (hi.agrees hd' hv' hfree hroot hkey hvalue hclaim hclaim rfl).wallet
  | asset key i value =>
    have hroot : h'.root = h.root := Option.some.inj (hd'.root.symm.trans hd.root)
    obtain ⟨claim,⟨claims,hkey,hi'⟩,hne⟩ := hchange
    obtain ⟨claims',hkey',hclaim'⟩ := mem_editClaim hkey hi'
    exact hne (hi.agrees hd' hv' hfree hroot hkey hkey' (List.mem_of_getElem? hi') hclaim' rfl).asset
  | amount key i value =>
    have hroot : h'.root = h.root := Option.some.inj (hd'.root.symm.trans hd.root)
    obtain ⟨claim,⟨claims,hkey,hi'⟩,hne⟩ := hchange
    obtain ⟨claims',hkey',hclaim'⟩ := mem_editClaim hkey hi'
    exact hne (hi.agrees hd' hv' hfree hroot hkey hkey' (List.mem_of_getElem? hi') hclaim' rfl).amount
  | proofElement key i k value =>
    obtain ⟨claim,element,⟨claims,hkey,hi'⟩,hk,hne⟩ := hchange
    obtain ⟨claims',hkey',hclaim'⟩ := mem_editClaim hkey hi'
    have hd'' : Declares (Edit.apply wp (.proofElement key i k value)) h :=
      ⟨hd.root,hd.chainId,hd.claimManager,hd.cycleId⟩
    have heq : h' = h := by
      rw [← Option.some.injEq,← headerOf_eq hd',← headerOf_eq hd'']
    rw [heq] at hv'
    exact hne (hi.element_unique hd'' hv' hfree hkey hkey' (List.mem_of_getElem? hi') hclaim' hk)

theorem Intact.tampered_fails (hi : Intact keccak256 wp h) {edit : Edit}
    (hchange : edit.Changes wp) (hfree : CollisionFree keccak256
      (verifierPreimages keccak256 wp ++ verifierPreimages keccak256 (edit.apply wp)))
    {r : IndependentProofResult}
    (hr : independentlyVerifyWalletProofs keccak256 (edit.apply wp) = some r) : r.ok = false := by
  rw [Bool.eq_false_iff]
  intro hok
  cases independentlyVerify_ok hr hok with
  | inl hnone =>
    cases edit with
    | merkleRoot value => exact hi.wallets hnone.2
    | _ => exact Option.some_ne_none _ (hi.declares.root.symm.trans hnone.1)
  | inr hsome =>
    obtain ⟨h',hd',hv'⟩ := hsome
    exact hi.tampered hchange hd' hv' hfree

end Tampering

/-! ## Published artifacts -/

theorem published_intact {keccak256 : Hash} {r : PipelineResult} {m : MerkleResult}
    (hp : Published keccak256 r m) {wp : WalletProofs}
    (hwp : Reorders wp r.artifacts.walletProofs.object) :
    Intact keccak256 wp (publishedHeader r.fixture.cycle m) where
  declares := hp.declares hwp
  verifies := hp.verifies hwp
  wallets := by
    intro hnil
    have hcount := hp.indexed.entryCount_eq
    rw [((hp.wallets hwp).symm.trans (hnil ▸ List.Perm.refl _)).eq_nil] at hcount
    exact hp.indexed.nonempty (List.length_eq_zero_iff.1 hcount.symm)
  claims := fun _ hw => (hp.indexed.mem_wallets ((hp.wallets hwp).mem_iff.1 hw)).1
  proofs := fun _ hw claim hclaim => by
    obtain ⟨e,-,-,rfl⟩ := (hp.indexed.mem_wallets ((hp.wallets hwp).mem_iff.1 hw)).2 claim hclaim
    exact ⟨e.proof,rfl⟩

/-- The artifacts of a published cycle are verified again without the code that made them, in
whatever order their members are read back; with one value of the wallet proofs replaced they
are not, unless the hash collides on what is hashed. -/
theorem published_round_trip {T : Type} (S : StandardMerkleTree T) (keccak256 : Hash)
    (input : RawCycleFixture) (r : PipelineResult)
    (h : runProofOfDistribution S keccak256 input = .ok r)
    (hpub : r.allocation.publishable = true) :
    (∀ wp, Reorders wp r.artifacts.walletProofs.object →
      (∃ result, independentlyVerifyWalletProofs keccak256 wp = some result ∧ result.ok = true ∧
        result.proofCount = r.allocation.entitlements.length) ∧
      ∀ edit : Edit, edit.Changes wp →
        CollisionFree keccak256
          (verifierPreimages keccak256 wp ++ verifierPreimages keccak256 (edit.apply wp)) →
        ∀ result, independentlyVerifyWalletProofs keccak256 (edit.apply wp) = some result →
          result.ok = false) ∧
    ∀ manifest, Reads manifest r.artifacts.manifest.object →
      verifyManifestEnvelope keccak256 manifest = some true ∧
      ∀ allocations, Reads allocations r.artifacts.allocations.object →
        verifyAllocationsContentHash keccak256 manifest allocations = some true := by
  obtain ⟨m,hp⟩ := runProofOfDistribution_published h hpub
  constructor
  · intro wp hwp
    exact ⟨hp.independently_verified hwp,fun edit hchange hfree result hresult =>
      (published_intact hp hwp).tampered_fails hchange hfree hresult⟩
  · intro manifest hmanifest
    rw [hp.artifacts] at hmanifest ⊢
    exact ⟨verifyManifestEnvelope_manifest hmanifest,
      fun allocations hallocations =>
        verifyAllocationsContentHash_manifest hmanifest hallocations⟩

def sampleRecord (wallet : Address) : RawEligibilityRecord where
  wallet := addressText wallet
  eligible := true
  policyVersion := "1".toList
  validFrom := "0".toList
  expiry := none
  revoked := false

/-- The sample epoch with both wallets eligible and `1000` units to share. -/
def publishedInput : RawCycleFixture :=
  { sampleInput with
    eligibility := [sampleRecord 1,sampleRecord 2]
    assets := [⟨"T".toList,"T".toList,addressText 50,18,"1000".toList⟩] }

/-- The proofs are presented as those of another chain. -/
def otherChain : Edit := .chainId "2".toList

/-- The byte strings hashed when the sample and its edit are verified. -/
def samplePreimages (r : PipelineResult) : List Bytes :=
  verifierPreimages toyHash r.artifacts.walletProofs.object ++
    verifierPreimages toyHash (otherChain.apply r.artifacts.walletProofs.object)

theorem publishedInput_round_trip : ∃ r,
    runProofOfDistribution (chainTrees toyHash) toyHash publishedInput = .ok r ∧
    (∃ result, independentlyVerifyWalletProofs toyHash r.artifacts.walletProofs.object = some result ∧
      result.ok = true ∧ result.proofCount = r.allocation.entitlements.length) ∧
    verifyManifestEnvelope toyHash r.artifacts.manifest.object = some true ∧
    ∀ result, independentlyVerifyWalletProofs toyHash
      (otherChain.apply r.artifacts.walletProofs.object) = some result → result.ok = false := by
  have hrun : (runProofOfDistribution (chainTrees toyHash) toyHash publishedInput).toOption.elim
      false (fun r => decide (r.allocation.publishable = true ∧
        toBigInt "2".toList ≠ toBigInt r.artifacts.walletProofs.object.chainId ∧
        ∀ a ∈ samplePreimages r, ∀ b ∈ samplePreimages r, toyHash a = toyHash b → a = b)) = true := by
    decide +kernel
  rcases hr : runProofOfDistribution (chainTrees toyHash) toyHash publishedInput with e | r
  · rw [hr] at hrun
    exact Bool.noConfusion hrun
  · rw [hr] at hrun
    obtain ⟨hpub,hchain,hpairs⟩ := of_decide_eq_true hrun
    obtain ⟨hproofs,hmanifest⟩ := published_round_trip (chainTrees toyHash) toyHash publishedInput
      r hr hpub
    have hwallets := hproofs _ ⟨_,List.Perm.refl _,rfl⟩
    exact ⟨r,rfl,hwallets.1,(hmanifest _ (Or.inl rfl)).1,
      hwallets.2 otherChain hchain (fun a ha b hb h => hpairs a ha b hb h)⟩

end ArtifactTampering
end BpsProtocol
