import BpsProtocol.LeafEncoding
import BpsProtocol.Lib.Checked
import BpsProtocol.Lib.Mapping
import Mathlib.Data.List.Sort

/-! Merkle trees over entitlements, and a wallet proof index.
The tree library is a package.  What is used of it is a record of its functions, and
`Documented` states the documented behaviour of trees over canonical leaf tuples. -/
namespace BpsProtocol
namespace Merkle

open Checked Mapping Shared LeafEncoding MerkleProof

/-- `StandardMerkleTree`: no value where the package throws.  `nodes` is the tree that
`dump` lists. -/
structure StandardMerkleTree (T : Type) where
  of : List (List Text) → List AbiType → Option T
  root : T → Bytes32
  leafHash : T → List Text → Option Bytes32
  getProof : T → List Text → Option (List Bytes32)
  getProofAt : T → ℕ → Option (List Bytes32)
  verify : Bytes32 → List AbiType → List Text → List Bytes32 → Option Bool
  nodes : T → MerkleTree.Tree Bytes32

variable {T : Type}

/-- A tree over canonical leaf tuples: its leaves are their double hashes in some order, its
nodes hash sorted pairs, and a proof lists the siblings of a leaf. -/
structure Built (keccak256 : Hash) (S : StandardMerkleTree T) (fields : List LeafFields)
    (t : T) : Prop where
  encoded : ∀ f ∈ fields, ∃ h, standardLeafHash keccak256 LEAF_ABI_TYPES f.value = some h
  leaves : (S.nodes t).leaves.Perm
    (fields.filterMap (fun f => standardLeafHash keccak256 LEAF_ABI_TYPES f.value))
  root : S.root t = (S.nodes t).root (commutativeKeccak256 keccak256)
  leafHash : ∀ f ∈ fields,
    S.leafHash t f.value = standardLeafHash keccak256 LEAF_ABI_TYPES f.value
  getProof : ∀ f ∈ fields, ∀ h, standardLeafHash keccak256 LEAF_ABI_TYPES f.value = some h →
    ∃ proof, S.getProof t f.value = some proof ∧
      (h,proof) ∈ (S.nodes t).openings (commutativeKeccak256 keccak256)
  getProofAt : ∀ i f, fields[i]? = some f → ∀ h,
    standardLeafHash keccak256 LEAF_ABI_TYPES f.value = some h →
    ∃ proof, S.getProofAt t i = some proof ∧
      (h,proof) ∈ (S.nodes t).openings (commutativeKeccak256 keccak256)
  verify : ∀ f ∈ fields, ∀ h, standardLeafHash keccak256 LEAF_ABI_TYPES f.value = some h →
    ∀ root proof, S.verify root LEAF_ABI_TYPES f.value proof =
      some (MerkleProof.verify keccak256 proof root h)

def Documented (keccak256 : Hash) (S : StandardMerkleTree T) : Prop :=
  ∀ fields t, S.of (fields.map LeafFields.value) LEAF_ABI_TYPES = some t →
    Built keccak256 S fields t

def leafFields (cycle : CycleConfig) (e : Entitlement) : LeafFields where
  chainId := cycle.chainId
  claimManager := cycle.claimManagerAddress
  cycleId := cycle.cycleId
  wallet := e.wallet
  asset := e.asset
  amount := e.amount

def toValue (cycle : CycleConfig) (e : Entitlement) : List Text :=
  [toString10 cycle.chainId,cycle.claimManagerAddress,toString10 cycle.cycleId,e.wallet,e.asset,
    toString10 e.amount]

def compareEntitlements (a b : Entitlement) : ℤ :=
  if a.wallet ≠ b.wallet then if a.wallet < b.wallet then -1 else 1
  else if a.asset ≠ b.asset then if a.asset < b.asset then -1 else 1
  else 0

def sortEntitlements (entitlements : List Entitlement) : List Entitlement :=
  entitlements.insertionSort (fun a b => compareEntitlements a b ≤ 0)

/-- `${e.cycleId}|${e.wallet}|${e.asset}` -/
def Entitlement.key (e : Entitlement) : Text :=
  toString10 e.cycleId ++ '|' :: e.wallet ++ '|' :: e.asset

/-- The loop over the sorted entitlements; `seen` holds the keys met so far. -/
def checkEntitlements : List Text → List Entitlement → Except ProofOfDistributionError Unit
  | _, [] => .ok ()
  | seen, e::rest => do
    revertIf (e.amount ≤ 0) (.zeroLeaf e.wallet e.asset)
    revertIf (Entitlement.key e ∈ seen) (.duplicateEntitlement e.cycleId e.wallet e.asset)
    checkEntitlements (Entitlement.key e::seen) rest

structure MerkleLeafEntry where
  entitlement : Entitlement
  leaf : Bytes32
  proof : List Bytes32
  deriving DecidableEq

structure MerkleResult where
  root : Bytes32
  leafEncoding : List AbiType
  entries : List MerkleLeafEntry
  walletIndex : Text → Option (List MerkleLeafEntry)

def entryOf (S : StandardMerkleTree T) (t : T) (cycle : CycleConfig) (entitlement : Entitlement) :
    Except ProofOfDistributionError MerkleLeafEntry := do
  let value := toValue cycle entitlement
  let leaf ← orRevert .library (S.leafHash t value)
  let proof ← orRevert .library (S.getProof t value)
  return { entitlement,leaf,proof }

def indexEntry (walletIndex : Text → Option (List MerkleLeafEntry)) (entry : MerkleLeafEntry) :
    Text → Option (List MerkleLeafEntry) :=
  set walletIndex entry.entitlement.wallet
    (some ((walletIndex entry.entitlement.wallet).getD [] ++ [entry]))

def buildMerkle (S : StandardMerkleTree T) (cycle : CycleConfig)
    (entitlements : List Entitlement) : Except ProofOfDistributionError MerkleResult := do
  revertIf (entitlements.length = 0) .emptyTree
  let sorted := sortEntitlements entitlements
  checkEntitlements [] sorted
  let values := sorted.map (toValue cycle)
  let tree ← orRevert .library (S.of values LEAF_ABI_TYPES)
  let entries ← sorted.mapM (entryOf S tree cycle)
  let walletIndex := entries.foldl indexEntry (fun _ => none)
  return { root := S.root tree,leafEncoding := LEAF_ABI_TYPES,entries,walletIndex }

def walletClaims (result : MerkleResult) (address : Text) :
    Except ProofOfDistributionError (List MerkleLeafEntry) := do
  let wallet ← normalizeAddress address "address".toList
  return (result.walletIndex wallet).getD []

def ozVerify (S : StandardMerkleTree T) (root : Bytes32) (cycle : CycleConfig) (e : Entitlement)
    (proof : List Bytes32) : Option Bool :=
  S.verify root LEAF_ABI_TYPES (toValue cycle e) proof

def viemLeafHash (keccak256 : Hash) (cycle : CycleConfig) (e : Entitlement) : Option Bytes32 :=
  viemLeafHashRaw keccak256 (leafFields cycle e)

def viemVerify (keccak256 : Hash) (cycle : CycleConfig) (e : Entitlement) (proof : List Bytes32)
    (root : Bytes32) : Option Bool := do
  let leaf ← viemLeafHash keccak256 cycle e
  return viemProcessProof keccak256 leaf proof = root

theorem sortEntitlements_perm (entitlements : List Entitlement) :
    (sortEntitlements entitlements).Perm entitlements :=
  List.perm_insertionSort _ _

theorem toValue_eq (cycle : CycleConfig) (e : Entitlement) :
    toValue cycle e = (leafFields cycle e).value := rfl

section StandIn

variable (keccak256 : Hash)

def chainNodes : Bytes32 → List Bytes32 → MerkleTree.Tree Bytes32
  | h, [] => .leaf h
  | h, h'::rest => .node (.leaf h) (chainNodes h' rest)

theorem chainNodes_leaves (h : Bytes32) (rest : List Bytes32) :
    (chainNodes h rest).leaves = h::rest := by
  induction rest generalizing h with
  | nil => rfl
  | cons h' rest ih => simp [chainNodes,MerkleTree.Tree.leaves,ih]

/-- The values of a tree, their types and its nodes. -/
structure ChainTree where
  values : List (List Text)
  types : List AbiType
  nodes : MerkleTree.Tree Bytes32

def ChainTree.proofOf (t : ChainTree) (value : List Text) : Option (List Bytes32) := do
  let h ← standardLeafHash keccak256 t.types value
  let opening ← (t.nodes.openings (commutativeKeccak256 keccak256)).find? (fun o => o.1 = h)
  return opening.2

/-- A stand-in for the tree package, for runs on fixed inputs: leaves in the given order. -/
def chainTrees : StandardMerkleTree ChainTree where
  of values types :=
    if values.all (fun v => (standardLeafHash keccak256 types v).isSome) then
      match values.filterMap (standardLeafHash keccak256 types) with
      | [] => none
      | h::rest => some ⟨values,types,chainNodes h rest⟩
    else none
  root t := t.nodes.root (commutativeKeccak256 keccak256)
  leafHash t value := standardLeafHash keccak256 t.types value
  getProof t value := t.proofOf keccak256 value
  getProofAt t i := t.values[i]?.bind (t.proofOf keccak256)
  verify root types value proof :=
    (standardLeafHash keccak256 types value).map (MerkleProof.verify keccak256 proof root)
  nodes t := t.nodes

theorem chainTrees_of_eq_some {values : List (List Text)} {types : List AbiType} {t : ChainTree}
    (h : (chainTrees keccak256).of values types = some t) :
    t.values = values ∧ t.types = types ∧
      (∀ v ∈ values, ∃ hash, standardLeafHash keccak256 types v = some hash) ∧
      t.nodes.leaves = values.filterMap (standardLeafHash keccak256 types) := by
  simp only [chainTrees] at h
  split at h
  · rename_i hall
    simp only [List.all_eq_true,Option.isSome_iff_exists] at hall
    split at h
    · exact absurd h (by simp)
    · rename_i hash rest heq
      obtain rfl := Option.some.inj h
      exact ⟨rfl,rfl,hall,by rw [chainNodes_leaves,heq]⟩
  · exact absurd h (by simp)

theorem ChainTree.proofOf_eq {t : ChainTree} {value : List Text} {h : Bytes32}
    (hh : standardLeafHash keccak256 t.types value = some h) (hmem : h ∈ t.nodes.leaves) :
    ∃ proof, t.proofOf keccak256 value = some proof ∧
      (h,proof) ∈ t.nodes.openings (commutativeKeccak256 keccak256) := by
  rw [← MerkleTree.Tree.openings_leaves (commutativeKeccak256 keccak256)] at hmem
  obtain ⟨o,ho,rfl⟩ := List.mem_map.1 hmem
  have hsome : ((t.nodes.openings (commutativeKeccak256 keccak256)).find?
      (fun p => p.1 = o.1)).isSome = true := by
    rw [List.find?_isSome]
    exact ⟨o,ho,by simp⟩
  obtain ⟨found,hfound⟩ := Option.isSome_iff_exists.1 hsome
  have hkey : found.1 = o.1 := by simpa using List.find?_some hfound
  refine ⟨found.2,?_,?_⟩
  · simp [ChainTree.proofOf,hh,hfound]
  · rw [← hkey]
    exact List.mem_of_find?_eq_some hfound

theorem chainTrees_documented : Documented keccak256 (chainTrees keccak256) := by
  intro fields t ht
  obtain ⟨hvalues,htypes,hall,hleaves⟩ := chainTrees_of_eq_some keccak256 ht
  have hencoded : ∀ f ∈ fields, ∃ h,
      standardLeafHash keccak256 LEAF_ABI_TYPES f.value = some h :=
    fun f hf => hall _ (List.mem_map_of_mem hf)
  have hproof : ∀ f ∈ fields, ∀ h, standardLeafHash keccak256 LEAF_ABI_TYPES f.value = some h →
      ∃ proof, t.proofOf keccak256 f.value = some proof ∧
        (h,proof) ∈ t.nodes.openings (commutativeKeccak256 keccak256) := by
    intro f hf h hh
    refine ChainTree.proofOf_eq keccak256 (by rw [htypes]; exact hh) ?_
    rw [hleaves]
    exact List.mem_filterMap.2 ⟨f.value,List.mem_map_of_mem hf,hh⟩
  refine ⟨hencoded,?_,rfl,fun f hf => ?_,hproof,fun i f hi h hh => ?_,fun f hf h hh root proof => ?_⟩
  · rw [show (chainTrees keccak256).nodes t = t.nodes from rfl,hleaves,List.filterMap_map]
    exact List.Perm.refl _
  · rw [← htypes]
    rfl
  · obtain ⟨proof,hp,hmem⟩ := hproof f (List.mem_of_getElem? hi) h hh
    refine ⟨proof,?_,hmem⟩
    have hget : t.values[i]? = some f.value := by rw [hvalues,List.getElem?_map,hi]; rfl
    simp [chainTrees,hget,hp]
  · simp [chainTrees,hh]

end StandIn

end Merkle
end BpsProtocol
