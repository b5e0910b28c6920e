import BpsProtocol.ClaimManagerSafety
import BpsProtocol.Merkle

/-! The proofs that `_claim` accepts are those that `buildMerkle` emits.
The hash is assumed free of collisions on the finitely many byte strings that the builder
and one verification hash.  Their lengths tell tuples, inner hashes and nodes apart. -/
namespace BpsProtocol
namespace Merkle

open Checked Shared LeafEncoding MerkleProof ClaimManager

/-- The byte strings hashed for one leaf. -/
def leafPreimages (keccak256 : Hash) (l : Leaf) : List Bytes :=
  [l.encode,wordBytes (keccak256 l.encode)]

def nodePreimages (pairs : List (Bytes32 × Bytes32)) : List Bytes :=
  pairs.map (fun p => sortedPair p.1 p.2)

/-- The byte strings hashed while one claim is verified. -/
def claimPreimages (keccak256 : Hash) (l : Leaf) (proof : List Bytes32) : List Bytes :=
  leafPreimages keccak256 l ++
    nodePreimages (MerkleTree.proofPairs (commutativeKeccak256 keccak256) (l.hash keccak256) proof)

/-- The byte strings hashed for a tree over the given leaves. -/
def treePreimages (keccak256 : Hash) (leaves : List Leaf) (tree : MerkleTree.Tree Bytes32) :
    List Bytes :=
  leaves.flatMap (leafPreimages keccak256) ++
    nodePreimages (tree.pairs (commutativeKeccak256 keccak256))

def CollisionFree (keccak256 : Hash) (preimages : List Bytes) : Prop :=
  Set.InjOn keccak256 { b | b ∈ preimages }

section Accepted

variable {keccak256 : Hash} {leaves : List Leaf} {tree : MerkleTree.Tree Bytes32} {l : Leaf}
  {proof : List Bytes32}

theorem mem_nodePreimages {pairs : List (Bytes32 × Bytes32)} {q : Bytes32 × Bytes32}
    (h : q ∈ pairs) : sortedPair q.1 q.2 ∈ nodePreimages pairs :=
  List.mem_map_of_mem h

theorem inner_mem (h : l ∈ leaves) :
    wordBytes (keccak256 l.encode) ∈ treePreimages keccak256 leaves tree := by
  refine List.mem_append_left _ (List.mem_flatMap.2 ⟨l,h,?_⟩)
  simp [leafPreimages]

/-- A node's preimage has two words, the outer preimage of a leaf one. -/
theorem node_ne_leaf {preimages : List Bytes} (hfree : CollisionFree keccak256 preimages)
    {q : Bytes32 × Bytes32} (hq : sortedPair q.1 q.2 ∈ preimages)
    (hl : wordBytes (keccak256 l.encode) ∈ preimages) :
    commutativeKeccak256 keccak256 q.1 q.2 ≠ l.hash keccak256 := by
  intro heq
  rw [commutativeKeccak256_eq] at heq
  have hlength := congrArg List.length (hfree hq hl heq)
  rw [sortedPair_length,wordBytes_length] at hlength
  exact absurd hlength (by decide)

theorem distinct_of_collisionFree {preimages : List Bytes}
    (hfree : CollisionFree keccak256 preimages) {ps qs : List (Bytes32 × Bytes32)}
    (hps : ∀ b ∈ nodePreimages ps, b ∈ preimages) (hqs : ∀ b ∈ nodePreimages qs, b ∈ preimages) :
    MerkleTree.Distinct (commutativeKeccak256 keccak256) ps qs := by
  intro p hp q hq heq
  rw [commutativeKeccak256_eq,commutativeKeccak256_eq] at heq
  exact sortedPair_injective
    (hfree (hps _ (mem_nodePreimages hp)) (hqs _ (mem_nodePreimages hq)) heq)

/-- Leaves with one hash are one leaf. -/
theorem leaf_eq_of_hash_eq {preimages : List Bytes} (hfree : CollisionFree keccak256 preimages)
    {l' : Leaf} (hl : ∀ b ∈ leafPreimages keccak256 l, b ∈ preimages)
    (hl' : ∀ b ∈ leafPreimages keccak256 l', b ∈ preimages)
    (h : l.hash keccak256 = l'.hash keccak256) : l = l' := by
  have hinner := hfree (hl _ (by simp [leafPreimages])) (hl' _ (by simp [leafPreimages])) h
  have houter := hfree (hl _ (by simp [leafPreimages])) (hl' _ (by simp [leafPreimages]))
    (wordBytes_injective hinner)
  exact Leaf.encode_injective houter

/-- The nodes and leaves of a published tree do not clash. -/
theorem tree_proper (hleaves : tree.leaves.Perm (leaves.map (Leaf.hash keccak256)))
    (hfree : CollisionFree keccak256 (treePreimages keccak256 leaves tree)) :
    tree.Proper (commutativeKeccak256 keccak256) where
  pairs := distinct_of_collisionFree hfree (fun b hb => List.mem_append_right _ hb)
    (fun b hb => List.mem_append_right _ hb)
  leaves := by
    intro x hx q hq
    obtain ⟨l',hl',rfl⟩ := List.mem_map.1 (hleaves.mem_iff.1 hx)
    exact node_ne_leaf hfree (List.mem_append_right _ (mem_nodePreimages hq)) (inner_mem hl')

/-- A tuple whose proof of any length is accepted is a published leaf with one of its own
proofs. -/
theorem opening_of_verify {root : Bytes32}
    (hleaves : tree.leaves.Perm (leaves.map (Leaf.hash keccak256)))
    (hroot : root = tree.root (commutativeKeccak256 keccak256))
    (hfree : CollisionFree keccak256
      (treePreimages keccak256 leaves tree ++ claimPreimages keccak256 l proof))
    (h : verify keccak256 proof root (l.hash keccak256) = true) :
    l ∈ leaves ∧
      (l.hash keccak256,proof) ∈ tree.openings (commutativeKeccak256 keccak256) := by
  have hleft : ∀ b ∈ treePreimages keccak256 leaves tree,
      b ∈ treePreimages keccak256 leaves tree ++ claimPreimages keccak256 l proof :=
    fun b hb => List.mem_append_left _ hb
  have hproof : ∀ b ∈ nodePreimages
      (MerkleTree.proofPairs (commutativeKeccak256 keccak256) (l.hash keccak256) proof),
      b ∈ treePreimages keccak256 leaves tree ++ claimPreimages keccak256 l proof :=
    fun b hb => List.mem_append_right _ (List.mem_append_right _ hb)
  have hown : ∀ b ∈ leafPreimages keccak256 l,
      b ∈ treePreimages keccak256 leaves tree ++ claimPreimages keccak256 l proof :=
    fun b hb => List.mem_append_right _ (List.mem_append_left _ hb)
  have htree : ∀ b ∈ nodePreimages (tree.pairs (commutativeKeccak256 keccak256)),
      b ∈ treePreimages keccak256 leaves tree ++ claimPreimages keccak256 l proof :=
    fun b hb => hleft b (List.mem_append_right _ hb)
  have hsep : MerkleTree.Separate (commutativeKeccak256 keccak256) tree (l.hash keccak256) proof :=
    { pairs := distinct_of_collisionFree hfree htree hproof
      leaves := by
        intro x hx q hq
        obtain ⟨l',hl',rfl⟩ := List.mem_map.1 (hleaves.mem_iff.1 hx)
        exact node_ne_leaf hfree (hproof _ (mem_nodePreimages hq)) (hleft _ (inner_mem hl')) }
  have hstart : ∀ p ∈ tree.pairs (commutativeKeccak256 keccak256),
      commutativeKeccak256 keccak256 p.1 p.2 ≠ l.hash keccak256 := by
    intro p hp
    exact node_ne_leaf hfree (htree _ (mem_nodePreimages hp)) (hown _ (by simp [leafPreimages]))
  rw [verify_eq_true,hroot] at h
  have hopening := MerkleTree.mem_openings_of_processProof hsep hstart h
  refine ⟨?_,hopening⟩
  have hmem : l.hash keccak256 ∈ tree.leaves := by
    rw [← MerkleTree.Tree.openings_leaves (commutativeKeccak256 keccak256)]
    exact List.mem_map_of_mem hopening
  obtain ⟨l',hl',heq⟩ := List.mem_map.1 (hleaves.mem_iff.1 hmem)
  have hown' : ∀ b ∈ leafPreimages keccak256 l',
      b ∈ treePreimages keccak256 leaves tree ++ claimPreimages keccak256 l proof :=
    fun b hb => hleft b (List.mem_append_left _ (List.mem_flatMap.2 ⟨l',hl',hb⟩))
  rw [← leaf_eq_of_hash_eq hfree hown' hown heq]
  exact hl'

end Accepted

section Build

variable {T : Type} {keccak256 : Hash} {S : StandardMerkleTree T} {cycle : CycleConfig}
  {entitlements : List Entitlement} {result : MerkleResult}

/-- The leaves of the contract that a list of entitlements publishes. -/
def publishedLeaves (cycle : CycleConfig) (entitlements : List Entitlement) : List Leaf :=
  entitlements.filterMap (fun e => (leafFields cycle e).leaf)

/-- The byte strings hashed by `buildMerkle`. -/
def builderPreimages (keccak256 : Hash) (S : StandardMerkleTree T) (cycle : CycleConfig)
    (entitlements : List Entitlement) : List Bytes :=
  let sorted := sortEntitlements entitlements
  match S.of (sorted.map (toValue cycle)) LEAF_ABI_TYPES with
  | none => []
  | some tree => treePreimages keccak256 (publishedLeaves cycle sorted) (S.nodes tree)

/-- What a successful `buildMerkle` built. -/
structure Grown (keccak256 : Hash) (S : StandardMerkleTree T) (cycle : CycleConfig)
    (entitlements : List Entitlement) (result : MerkleResult) (t : T) : Prop where
  of_ : S.of ((sortEntitlements entitlements).map (toValue cycle)) LEAF_ABI_TYPES = some t
  built : Built keccak256 S ((sortEntitlements entitlements).map (leafFields cycle)) t
  root : result.root = S.root t
  entries : List.Forall₂ (fun e entry => entryOf S t cycle e = .ok entry)
    (sortEntitlements entitlements) result.entries

theorem buildMerkle_ok (hdoc : Documented keccak256 S)
    (h : buildMerkle S cycle entitlements = .ok result) :
    ∃ t, Grown keccak256 S cycle entitlements result t := by
  simp only [buildMerkle,bind_eq_ok,revertIf_eq_ok,orRevert_eq_ok,mapM_eq_ok,exists_const,
    pure_eq_ok] at h
  obtain ⟨-,-,-,t,hof,entries,hentries,rfl⟩ := h
  refine ⟨t,hof,hdoc _ _ ?_,rfl,hentries⟩
  rw [List.map_map]
  exact hof

theorem entryOf_ok {t : T} {e : Entitlement} {entry : MerkleLeafEntry}
    (h : entryOf S t cycle e = .ok entry) : entry.entitlement = e ∧
      S.leafHash t (toValue cycle e) = some entry.leaf ∧
      S.getProof t (toValue cycle e) = some entry.proof := by
  simp only [entryOf,bind_eq_ok,orRevert_eq_ok,pure_eq_ok] at h
  obtain ⟨leaf,hleaf,proof,hproof,rfl⟩ := h
  exact ⟨rfl,hleaf,hproof⟩

variable {t : T}

theorem map_entitlement_of_entryOf {sorted : List Entitlement} {entries : List MerkleLeafEntry}
    (h : List.Forall₂ (fun e entry => entryOf S t cycle e = .ok entry) sorted entries) :
    entries.map MerkleLeafEntry.entitlement = sorted := by
  induction h with
  | nil => rfl
  | cons hhead _ ih => rw [List.map_cons,ih,(entryOf_ok hhead).1]

theorem Grown.map_entitlement (hg : Grown keccak256 S cycle entitlements result t) :
    result.entries.map MerkleLeafEntry.entitlement = sortEntitlements entitlements :=
  map_entitlement_of_entryOf hg.entries

theorem Grown.leaves (hg : Grown keccak256 S cycle entitlements result t) :
    (S.nodes t).leaves.Perm
      ((publishedLeaves cycle (sortEntitlements entitlements)).map (Leaf.hash keccak256)) := by
  have h := hg.built.leaves
  simp only [List.filterMap_map,Function.comp_def,standardLeafHash_value] at h
  rw [publishedLeaves,List.map_filterMap]
  exact h

/-- Each entry holds the hash of a published leaf and one of its proofs in the tree. -/
theorem Grown.entry (hg : Grown keccak256 S cycle entitlements result t) {entry : MerkleLeafEntry}
    (h : entry ∈ result.entries) : ∃ l, (leafFields cycle entry.entitlement).leaf = some l ∧
      entry.leaf = l.hash keccak256 ∧
      (entry.leaf,entry.proof) ∈ (S.nodes t).openings (commutativeKeccak256 keccak256) := by
  have hmem : entry.entitlement ∈ sortEntitlements entitlements := by
    rw [← hg.map_entitlement]
    exact List.mem_map_of_mem h
  obtain ⟨e,he⟩ := List.forall₂_iff_get.1 hg.entries
  obtain ⟨i,hi,rfl⟩ := List.getElem_of_mem h
  obtain ⟨hent,hleaf,hproof⟩ := entryOf_ok (he i (by omega) hi)
  have hfields := List.mem_map_of_mem (f := leafFields cycle) hmem
  obtain ⟨hash,hhash⟩ := hg.built.encoded _ hfields
  obtain ⟨proof,hproof',hopening⟩ := hg.built.getProof _ hfields _ hhash
  have hleaf' := hg.built.leafHash _ hfields
  rw [hhash,← toValue_eq] at hleaf'
  simp only [List.get_eq_getElem] at hent hleaf hproof
  rw [← hent] at hleaf hproof
  rw [← toValue_eq] at hproof'
  obtain rfl := Option.some.inj (hleaf.symm.trans hleaf')
  obtain rfl := Option.some.inj (hproof.symm.trans hproof')
  rw [standardLeafHash_value] at hhash
  obtain ⟨l,hl,hlhash⟩ := Option.map_eq_some_iff.1 hhash
  exact ⟨l,hl,hlhash.symm,hopening⟩

theorem Grown.map_leaf (hg : Grown keccak256 S cycle entitlements result t) :
    (publishedLeaves cycle (sortEntitlements entitlements)).map (Leaf.hash keccak256) =
      result.entries.map MerkleLeafEntry.leaf := by
  have hall := fun entry => @Grown.entry _ _ _ _ _ _ _ hg entry
  rw [← hg.map_entitlement]
  generalize result.entries = entries at hall
  induction entries with
  | nil => rfl
  | cons entry rest ih =>
    obtain ⟨l,hl,hhash,-⟩ := hall entry (by simp)
    have hrest := ih (fun e he => hall e (List.mem_cons_of_mem _ he))
    simp only [publishedLeaves,List.map_cons,List.filterMap_cons,hl] at hrest ⊢
    rw [hrest,hhash]

theorem Grown.preimages (hg : Grown keccak256 S cycle entitlements result t) :
    builderPreimages keccak256 S cycle entitlements =
      treePreimages keccak256 (publishedLeaves cycle (sortEntitlements entitlements))
        (S.nodes t) := by
  simp only [builderPreimages,hg.of_]

/-- The check of `_claim`. -/
def AcceptsProof (d : Deployment) (w : World) (cycleId : Uint256) (claimant asset : Address)
    (amount : Uint256) (proof : List Bytes32) : Prop :=
  verify d.keccak256 proof (w.manager.cycles cycleId).merkleRoot
    (leafFor d cycleId claimant asset amount) = true

/-- An entry publishes the leaf, and the proof is one of the entry's leaf: the entry's own
unless two entries share the leaf, and never a shorter or longer form of it. -/
structure Emitted (cycle : CycleConfig) (result : MerkleResult) (l : Leaf) (proof : List Bytes32)
    (entry : MerkleLeafEntry) : Prop where
  mem : entry ∈ result.entries
  leaf : (leafFields cycle entry.entitlement).leaf = some l
  own : (result.entries.map MerkleLeafEntry.leaf).Nodup → proof = entry.proof
  append : ∀ extra, proof = entry.proof ++ extra ∨ entry.proof = proof ++ extra → extra = []
  prepend : ∀ extra, proof = extra ++ entry.proof ∨ entry.proof = extra ++ proof → extra = []

theorem Grown.emitted (hg : Grown keccak256 S cycle entitlements result t) {l : Leaf}
    {proof : List Bytes32}
    (hfree : CollisionFree keccak256
      (builderPreimages keccak256 S cycle entitlements ++ claimPreimages keccak256 l proof))
    (h : verify keccak256 proof result.root (l.hash keccak256) = true) :
    ∃ entry, Emitted cycle result l proof entry := by
  rw [hg.preimages] at hfree
  obtain ⟨hl,hopening⟩ := opening_of_verify hg.leaves (hg.root.trans hg.built.root) hfree h
  obtain ⟨e,he,hleaf⟩ := List.mem_filterMap.1 hl
  rw [← hg.map_entitlement] at he
  obtain ⟨entry,hentry,rfl⟩ := List.mem_map.1 he
  obtain ⟨l',hl',hhash,hown⟩ := hg.entry hentry
  obtain rfl := Option.some.inj (hleaf.symm.trans hl')
  have hcomm := commutativeKeccak256_comm keccak256
  have hproper := tree_proper hg.leaves
    (hfree.mono (fun b hb => List.mem_append_left _ hb))
  have hmem : l.hash keccak256 ∈ (S.nodes t).leaves :=
    hg.leaves.mem_iff.2 (List.mem_map_of_mem hl)
  rw [hhash] at hown
  refine ⟨entry,hentry,hleaf,?_,?_,?_⟩
  · intro hnodup
    rw [(hg.leaves.trans (hg.map_leaf ▸ List.Perm.refl _)).symm.nodup_iff,
      ← MerkleTree.Tree.openings_leaves (commutativeKeccak256 keccak256)] at hnodup
    exact (Prod.mk.inj (List.inj_on_of_nodup_map hnodup hopening hown rfl)).2
  · rintro extra (rfl | heq)
    · exact hproper.openings_append hcomm hown hopening
    · rw [heq] at hown
      exact hproper.openings_append hcomm hopening hown
  · rintro extra (rfl | heq)
    · exact hproper.openings_prepend hcomm hmem hown hopening
    · rw [heq] at hown
      exact hproper.openings_prepend hcomm hmem hopening hown

/-- The leaf of an entry, and what every verifier says of its proof. -/
structure Verified (keccak256 : Hash) (S : StandardMerkleTree T) (cycle : CycleConfig)
    (root : Bytes32) (entry : MerkleLeafEntry) (l : Leaf) : Prop where
  leaf : (leafFields cycle entry.entitlement).leaf = some l
  hash : entry.leaf = l.hash keccak256
  onchain : verify keccak256 entry.proof root (l.hash keccak256) = true
  oz : ozVerify S root cycle entry.entitlement entry.proof = some true
  viem : ∀ b, viemVerify keccak256 cycle entry.entitlement entry.proof root = some b → b = true
  viem_canonical : cycle.claimManagerAddress = addressText l.claimManager →
    entry.entitlement.wallet = addressText l.claimant →
    entry.entitlement.asset = addressText l.asset →
    viemVerify keccak256 cycle entry.entitlement entry.proof root = some true

theorem Grown.verified (hg : Grown keccak256 S cycle entitlements result t)
    {entry : MerkleLeafEntry} (h : entry ∈ result.entries) :
    ∃ l, Verified keccak256 S cycle result.root entry l := by
  obtain ⟨l,hl,hhash,hopening⟩ := hg.entry h
  have hprocess := MerkleTree.processProof_opening (commutativeKeccak256_comm keccak256) _ _
    hopening
  rw [← hg.built.root,← hg.root,hhash] at hprocess
  have honchain : verify keccak256 entry.proof result.root (l.hash keccak256) = true :=
    (verify_eq_true keccak256).2 hprocess
  have hfields : leafFields cycle entry.entitlement ∈
      (sortEntitlements entitlements).map (leafFields cycle) := by
    rw [← hg.map_entitlement]
    exact List.mem_map_of_mem (List.mem_map_of_mem h)
  have hstandard : standardLeafHash keccak256 LEAF_ABI_TYPES
      (leafFields cycle entry.entitlement).value = some (l.hash keccak256) := by
    rw [standardLeafHash_value,hl]
    rfl
  refine ⟨l,hl,hhash,honchain,?_,?_,?_⟩
  · rw [ozVerify,toValue_eq,hg.built.verify _ hfields _ hstandard,honchain]
  · intro b hb
    simp only [viemVerify,viemLeafHash,Option.bind_eq_bind,Option.bind_eq_some_iff] at hb
    obtain ⟨hash,hviem,hb⟩ := hb
    obtain ⟨l',hl',rfl⟩ := viemLeafHashRaw_eq_some hviem
    obtain rfl := Option.some.inj (hl.symm.trans hl')
    rw [← Option.some.inj hb,viemProcessProof_eq]
    simpa using (verify_eq_true keccak256).1 honchain
  · intro hm hw ha
    have hviem : viemLeafHashRaw keccak256 (leafFields cycle entry.entitlement) =
        some (l.hash keccak256) := viemLeafHashRaw_of_leaf hl hm hw ha
    rw [viemVerify,viemLeafHash,hviem]
    simpa [viemProcessProof_eq] using (verify_eq_true keccak256).1 honchain

end Build

theorem claimOne_ne_invalidProof {d : Deployment} {w : World} {cycleId : Uint256}
    {claimant asset : Address} {amount : Uint256} {proof : List Bytes32}
    (h : AcceptsProof d w cycleId claimant asset amount proof) :
    claimOne d w cycleId claimant asset amount proof ≠ .error .invalidProof := by
  intro herror
  simp only [claimOne,bind_eq_error,revertIf_eq_error,sub_eq_error,add_eq_error,mapError_eq_error,
    pure_eq_error,revertIf_eq_ok,exists_const,reduceCtorEq,and_false,and_true,false_or,or_false,
    exists_false] at herror
  obtain ⟨-,-,-,-,-,-,hverify⟩ := herror
  rw [show verify d.keccak256 proof _ _ = true from h] at hverify
  cases hverify

/-- Where the published root is that of a built tree, `_claim` accepts a proof of any
length only for a published leaf of its own chain, manager and cycle, and only a proof of
that leaf; every emitted proof is accepted. -/
theorem published_claims_sound {T : Type} {keccak256 : Hash} {S : StandardMerkleTree T}
    {cycle : CycleConfig} {entitlements : List Entitlement} {result : MerkleResult}
    (hdoc : Documented keccak256 S) (hbuild : buildMerkle S cycle entitlements = .ok result) :
    (result.entries.map MerkleLeafEntry.entitlement).Perm entitlements ∧
    (∀ (d : Deployment) (w w' : World) (cycleId : Uint256) (claimant asset : Address)
      (amount : Uint256) (proof : List Bytes32),
      claimOne d w cycleId claimant asset amount proof = .ok w' →
      AcceptsProof d w cycleId claimant asset amount proof) ∧
    (∀ (d : Deployment) (w : World) (cycleId : Uint256) (claimant asset : Address)
      (amount : Uint256) (proof : List Bytes32),
      d.keccak256 = keccak256 → (w.manager.cycles cycleId).merkleRoot = result.root →
      CollisionFree keccak256 (builderPreimages keccak256 S cycle entitlements ++
        claimPreimages keccak256 ⟨d.chainId,d.here,cycleId,claimant,asset,amount⟩ proof) →
      AcceptsProof d w cycleId claimant asset amount proof →
      ∃ entry, Emitted cycle result ⟨d.chainId,d.here,cycleId,claimant,asset,amount⟩ proof
        entry) ∧
    (∀ entry ∈ result.entries, ∃ l, Verified keccak256 S cycle result.root entry l ∧
      ∀ (d : Deployment) (w : World), d.keccak256 = keccak256 → d.chainId = l.chainId →
        d.here = l.claimManager → (w.manager.cycles l.cycleId).merkleRoot = result.root →
        AcceptsProof d w l.cycleId l.claimant l.asset l.amount entry.proof ∧
        claimOne d w l.cycleId l.claimant l.asset l.amount entry.proof ≠
          .error .invalidProof) := by
  obtain ⟨t,hg⟩ := buildMerkle_ok hdoc hbuild
  refine ⟨?_,?_,?_,?_⟩
  · rw [hg.map_entitlement]
    exact sortEntitlements_perm entitlements
  · intro d w w' cycleId claimant asset amount proof h
    exact (claimOne_ok h).verified
  · intro d w cycleId claimant asset amount proof hkeccak hroot hfree h
    unfold AcceptsProof leafFor at h
    rw [hkeccak,hroot] at h
    exact hg.emitted hfree h
  · intro entry hentry
    obtain ⟨l,hl⟩ := hg.verified hentry
    refine ⟨l,hl,fun d w hkeccak hchain hhere hroot => ?_⟩
    have haccepts : AcceptsProof d w l.cycleId l.claimant l.asset l.amount entry.proof := by
      unfold AcceptsProof leafFor
      rw [hkeccak,hroot,hchain,hhere]
      exact hl.onchain
    exact ⟨haccepts,claimOne_ne_invalidProof haccepts⟩

def sampleConfig : CycleConfig where
  schemaVersion := []
  cycleId := 1
  chainId := 1
  bpsTokenAddress := addressText 9
  claimManagerAddress := addressText 100
  economicsVersion := []
  rewardPolicyVersion := []
  epochId := 0
  epochStart := 0
  epochEnd := 900
  startBlock := 0
  endBlock := 0
  snapshotBlock := 0
  finalizedBlock := 0
  confirmationDepth := 0
  claimStart := 10
  claimDeadline := 20
  termsVersion := []
  eligibilityPolicyVersion := []
  restrictedJurisdictionPolicyVersion := []

/-- Two wallets entitled to one asset. -/
def sampleEntitlements : List Entitlement :=
  [⟨1,addressText 1,addressText 50,200⟩,⟨1,addressText 2,addressText 50,300⟩]

/-- A claim of the first wallet for more than its entitlement. -/
def overclaim : Leaf := ⟨1,100,1,1,50,201⟩

theorem overclaim_collisionFree : CollisionFree toyHash
    (builderPreimages toyHash (chainTrees toyHash) sampleConfig sampleEntitlements ++
      claimPreimages toyHash overclaim []) := by
  have hpairs : ∀ a ∈ builderPreimages toyHash (chainTrees toyHash) sampleConfig
      sampleEntitlements ++ claimPreimages toyHash overclaim [],
      ∀ b ∈ builderPreimages toyHash (chainTrees toyHash) sampleConfig
        sampleEntitlements ++ claimPreimages toyHash overclaim [],
      toyHash a = toyHash b → a = b := by
    decide +kernel
  exact fun a ha b hb h => hpairs a ha b hb h

theorem sample_overclaim_refused : ∃ result,
    buildMerkle (chainTrees toyHash) sampleConfig sampleEntitlements = .ok result ∧
    ∀ w : World, (w.manager.cycles 1).merkleRoot = result.root →
      ¬AcceptsProof sample w 1 1 50 201 [] := by
  have hok : (buildMerkle (chainTrees toyHash) sampleConfig sampleEntitlements).isOk = true := by
    decide +kernel
  obtain ⟨result,hbuild⟩ := exists_eq_ok hok
  refine ⟨result,hbuild,fun w hroot haccepts => ?_⟩
  have hsound := published_claims_sound (chainTrees_documented toyHash) hbuild
  obtain ⟨entry,hemitted⟩ := hsound.2.2.1 sample w 1 1 50 201 [] rfl hroot
    overclaim_collisionFree haccepts
  have hmem := hsound.1.mem_iff.1 (List.mem_map_of_mem hemitted.mem)
  have hamount := (leaf_eq_some.1 hemitted.leaf).2.2.2.2.2
  have hsample : ∀ e ∈ sampleEntitlements, e.amount ≠ 201 := by decide
  exact hsample _ hmem hamount

end Merkle
end BpsProtocol
