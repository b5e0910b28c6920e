import BpsProtocol.MerkleProof
import BpsProtocol.Shared

/-! The leaf of an entitlement as the off-chain engine encodes it.
Values are strings on the way into the tree library and fields on the way into viem.  Both
encodings are those of the contract, field by field. -/
namespace BpsProtocol
namespace LeafEncoding

open Shared HexText MerkleProof

inductive AbiType
  | uint256
  | address
  deriving DecidableEq

def LEAF_ABI_TYPES : List AbiType := [.uint256,.address,.uint256,.address,.address,.uint256]

structure LeafFields where
  chainId : ℤ
  claimManager : Text
  cycleId : ℤ
  wallet : Text
  asset : Text
  amount : ℤ
  deriving DecidableEq

/-- The strings of the canonical leaf tuple. -/
def LeafFields.value (f : LeafFields) : List Text :=
  [toString10 f.chainId,f.claimManager,toString10 f.cycleId,f.wallet,f.asset,toString10 f.amount]

def uint256 (n : ℤ) : Option Bytes32 :=
  if 0 ≤ n ∧ n < 2^256 then some (Fin.ofNat (2^256) n.toNat) else none

/-- One encoded word; a string that does not fit its type is refused. -/
def abiWord : AbiType → Text → Option Bytes32
  | .uint256, v => if isNonNegativeIntegerString v then uint256 (bigInt v) else none
  | .address, v => (addressOf v).map addressWord

def abiWords : List AbiType → List Text → Option (List Bytes32)
  | [], [] => some []
  | t::types, v::values => do
    let word ← abiWord t v
    let words ← abiWords types values
    return word::words
  | _, _ => none

def abiEncode (types : List AbiType) (values : List Text) : Option Bytes :=
  (abiWords types values).map (fun words => words.flatMap wordBytes)

/-- `standardLeafHash` -/
def standardLeafHash (keccak256 : Hash) (types : List AbiType) (value : List Text) :
    Option Bytes32 :=
  (abiEncode types value).map (fun bytes => keccak256 (wordBytes (keccak256 bytes)))

/-- The leaf of the contract that the fields spell. -/
def LeafFields.leaf (f : LeafFields) : Option Leaf := do
  let chainId ← uint256 f.chainId
  let claimManager ← addressOf f.claimManager
  let cycleId ← uint256 f.cycleId
  let claimant ← addressOf f.wallet
  let asset ← addressOf f.asset
  let amount ← uint256 f.amount
  return { chainId,claimManager,cycleId,claimant,asset,amount }

/-- `getAddress`: the mixed case of an address that its own hash prescribes. -/
def checksumAddress (keccak256 : Hash) (address : Text) : Text :=
  let digits := toLowerCase (address.drop 2)
  let hash := keccak256 (digits.map (fun c => UInt8.ofNat c.toNat))
  '0' :: 'x' :: List.zipWith (fun c nibble => if 8 ≤ digitValue nibble then c.toUpper else c)
    digits (write 64 hash.val)

/-- `isAddress` of viem: lower case, or the checksummed case. -/
def isAddress (keccak256 : Hash) (address : Text) : Bool :=
  isHexAddress address &&
    (toLowerCase address = address || checksumAddress keccak256 address = address)

def viemAddress (keccak256 : Hash) (address : Text) : Option Bytes32 :=
  if isAddress keccak256 address then (addressOf address).map addressWord else none

/-- `encodeAbiParameters`, then the double hash; no value where viem throws. -/
def viemLeafHashRaw (keccak256 : Hash) (f : LeafFields) : Option Bytes32 := do
  let chainId ← uint256 f.chainId
  let claimManager ← viemAddress keccak256 f.claimManager
  let cycleId ← uint256 f.cycleId
  let wallet ← viemAddress keccak256 f.wallet
  let asset ← viemAddress keccak256 f.asset
  let amount ← uint256 f.amount
  let encoded := [chainId,claimManager,cycleId,wallet,asset,amount].flatMap wordBytes
  return keccak256 (wordBytes (keccak256 encoded))

def sortedPair (a b : Bytes32) : Bytes :=
  if a < b then wordBytes a ++ wordBytes b else wordBytes b ++ wordBytes a

def viemProcessProof (keccak256 : Hash) (leaf : Bytes32) (proof : List Bytes32) : Bytes32 :=
  proof.foldl (fun computed sibling => keccak256 (sortedPair computed sibling)) leaf

def viemVerifyRaw (keccak256 : Hash) (f : LeafFields) (proof : List Bytes32) (root : Bytes32) :
    Option Bool := do
  let leaf ← viemLeafHashRaw keccak256 f
  return viemProcessProof keccak256 leaf proof = root

theorem uint256_eq_some {n : ℤ} {word : Bytes32} :
    uint256 n = some word ↔ n = (word.val : ℤ) := by
  have hlt : (word.val : ℤ) < 2^256 := by exact_mod_cast word.isLt
  unfold uint256
  split
  · rename_i h
    rw [Option.some.injEq,Fin.ext_iff,Fin.val_ofNat]
    have hmod : n.toNat%2^256 = n.toNat := Nat.mod_eq_of_lt (by omega)
    rw [hmod]
    omega
  · simp only [reduceCtorEq,false_iff]
    omega

/-- A positive number is not written with a leading zero. -/
theorem toDigits_head {n : ℕ} (hn : 0 < n) : ∃ c rest, Nat.toDigits 10 n = c::rest ∧ c ≠ '0' := by
  induction n using Nat.strongRecOn with
  | _ n ih =>
    rcases Nat.lt_or_ge n 10 with hlt | hge
    · refine ⟨n.digitChar,[],Nat.toDigits_of_lt_base hlt,?_⟩
      interval_cases n <;> decide
    · obtain ⟨c,rest,heq,hc⟩ := ih (n/10) (by omega) (by omega)
      refine ⟨c,rest ++ [(n%10).digitChar],?_,hc⟩
      rw [Nat.toDigits_of_base_le (by decide) hge,heq]
      rfl

theorem isNonNegativeIntegerString_toString10 {n : ℤ} :
    isNonNegativeIntegerString (toString10 n) = true ↔ 0 ≤ n := by
  unfold toString10
  split
  · rename_i h
    simp only [isNonNegativeIntegerString]
    constructor
    · intro h'
      exact absurd h' (by simp [Char.isDigit])
    · intro h'
      omega
  · rename_i h
    refine ⟨fun _ => by omega,fun _ => ?_⟩
    rcases Nat.eq_zero_or_pos n.natAbs with hz | hpos
    · rw [hz]
      decide
    · obtain ⟨c,rest,heq,hc⟩ := toDigits_head hpos
      have hdigits := @DecimalText.isDigit_toDigits n.natAbs
      rw [heq] at hdigits ⊢
      simp only [List.mem_cons,forall_eq_or_imp] at hdigits
      simp [isNonNegativeIntegerString,hc,hdigits.1]
      exact hdigits.2

theorem abiWord_uint256 (n : ℤ) : abiWord .uint256 (toString10 n) = uint256 n := by
  rw [abiWord]
  by_cases h : 0 ≤ n
  · rw [if_pos (isNonNegativeIntegerString_toString10.2 h),bigInt_toString10 h]
  · rw [if_neg (fun h' => h (isNonNegativeIntegerString_toString10.1 h')),uint256,
      if_neg (fun h' => h h'.1)]

/-- The strings encode to the contract's encoding of the leaf they spell. -/
theorem abiEncode_value (f : LeafFields) :
    abiEncode LEAF_ABI_TYPES f.value = f.leaf.map Leaf.encode := by
  simp only [abiEncode,LEAF_ABI_TYPES,LeafFields.value,abiWords,abiWord_uint256,LeafFields.leaf]
  simp only [abiWord]
  cases uint256 f.chainId <;> cases addressOf f.claimManager <;> cases uint256 f.cycleId <;>
    cases addressOf f.wallet <;> cases addressOf f.asset <;> cases uint256 f.amount <;> rfl

theorem standardLeafHash_value (keccak256 : Hash) (f : LeafFields) :
    standardLeafHash keccak256 LEAF_ABI_TYPES f.value = f.leaf.map (Leaf.hash keccak256) := by
  rw [standardLeafHash,abiEncode_value,Option.map_map]
  rfl

/-- What the fields must be for them to spell a leaf. -/
theorem leaf_eq_some {f : LeafFields} {l : Leaf} :
    f.leaf = some l ↔ f.chainId = (l.chainId.val : ℤ) ∧ addressOf f.claimManager = some l.claimManager ∧
      f.cycleId = (l.cycleId.val : ℤ) ∧ addressOf f.wallet = some l.claimant ∧
      addressOf f.asset = some l.asset ∧ f.amount = (l.amount.val : ℤ) := by
  simp only [LeafFields.leaf,Option.bind_eq_bind,Option.bind_eq_some_iff,uint256_eq_some]
  constructor
  · rintro ⟨chainId,hchain,manager,hm,cycleId,hcycle,claimant,hc,asset,ha,amount,hamount,hl⟩
    obtain rfl := Option.some.inj hl
    exact ⟨hchain,hm,hcycle,hc,ha,hamount⟩
  · rintro ⟨hchain,hm,hcycle,hc,ha,hamount⟩
    exact ⟨_,hchain,_,hm,_,hcycle,_,hc,_,ha,_,hamount,rfl⟩

theorem viemAddress_eq_some {keccak256 : Hash} {s : Text} {word : Bytes32}
    (h : viemAddress keccak256 s = some word) : ∃ a, addressOf s = some a ∧ word = addressWord a := by
  unfold viemAddress at h
  split at h
  · obtain ⟨a,ha,rfl⟩ := Option.map_eq_some_iff.1 h
    exact ⟨a,ha,rfl⟩
  · exact absurd h (by simp)

theorem viemAddress_addressText (keccak256 : Hash) (a : Address) :
    viemAddress keccak256 (addressText a) = some (addressWord a) := by
  have hlower : toLowerCase (addressText a) = addressText a :=
    toLowerCase_eq_addressText (addressOf_addressText a)
  rw [viemAddress,if_pos (by simp [isAddress,hlower]),addressOf_addressText]
  rfl

/-- Where viem computes a leaf hash, it is that of the contract. -/
theorem viemLeafHashRaw_eq_some {keccak256 : Hash} {f : LeafFields} {hash : Bytes32}
    (h : viemLeafHashRaw keccak256 f = some hash) :
    ∃ l, f.leaf = some l ∧ hash = l.hash keccak256 := by
  simp only [viemLeafHashRaw,Option.bind_eq_bind,Option.bind_eq_some_iff] at h
  obtain ⟨chainId,hchain,manager,hm,cycleId,hcycle,wallet,hw,asset,ha,amount,hamount,hhash⟩ := h
  obtain ⟨manager',hm',rfl⟩ := viemAddress_eq_some hm
  obtain ⟨wallet',hw',rfl⟩ := viemAddress_eq_some hw
  obtain ⟨asset',ha',rfl⟩ := viemAddress_eq_some ha
  refine ⟨⟨chainId,manager',cycleId,wallet',asset',amount⟩,?_,(Option.some.inj hhash).symm⟩
  exact leaf_eq_some.2 ⟨uint256_eq_some.1 hchain,hm',uint256_eq_some.1 hcycle,hw',ha',
    uint256_eq_some.1 hamount⟩

/-- viem accepts every leaf whose addresses are in canonical form. -/
theorem viemLeafHashRaw_of_leaf {keccak256 : Hash} {f : LeafFields} {l : Leaf}
    (h : f.leaf = some l) (hm : f.claimManager = addressText l.claimManager)
    (hw : f.wallet = addressText l.claimant) (ha : f.asset = addressText l.asset) :
    viemLeafHashRaw keccak256 f = some (l.hash keccak256) := by
  obtain ⟨hchain,-,hcycle,-,-,hamount⟩ := leaf_eq_some.1 h
  rw [viemLeafHashRaw,hm,hw,ha,uint256_eq_some.2 hchain,uint256_eq_some.2 hcycle,
    uint256_eq_some.2 hamount,viemAddress_addressText,viemAddress_addressText,
    viemAddress_addressText]
  rfl

theorem commutativeKeccak256_eq (keccak256 : Hash) (a b : Bytes32) :
    commutativeKeccak256 keccak256 a b = keccak256 (sortedPair a b) := by
  unfold commutativeKeccak256 efficientKeccak256 sortedPair
  split <;> rfl

/-- viem folds a proof as the contract's library does. -/
theorem viemProcessProof_eq (keccak256 : Hash) (leaf : Bytes32) (proof : List Bytes32) :
    viemProcessProof keccak256 leaf proof = MerkleProof.processProof keccak256 proof leaf := by
  induction proof generalizing leaf with
  | nil => rfl
  | cons sibling proof ih =>
    have hstep := ih (keccak256 (sortedPair leaf sibling))
    simp only [viemProcessProof,MerkleProof.processProof,MerkleTree.processProof,List.foldl_cons]
      at hstep ⊢
    rw [hstep,commutativeKeccak256_eq]

theorem sortedPair_length (a b : Bytes32) : (sortedPair a b).length = 64 := by
  unfold sortedPair
  split <;> simp

/-- The sorted pair forgets the order of its two words and nothing else. -/
theorem sortedPair_injective {a b c d : Bytes32} (h : sortedPair a b = sortedPair c d) :
    (c,d) = (a,b) ∨ (c,d) = (a,b).swap := by
  have hwords (w x y z : Bytes32) (hwx : wordBytes w ++ wordBytes x = wordBytes y ++ wordBytes z) :
      w = y ∧ x = z := by
    obtain ⟨hl,hr⟩ := List.append_inj hwx (by simp)
    exact ⟨wordBytes_injective hl,wordBytes_injective hr⟩
  unfold sortedPair at h
  split at h <;> split at h
  all_goals
    obtain ⟨h₁,h₂⟩ := hwords _ _ _ _ h
    subst h₁ h₂
    simp

end LeafEncoding
end BpsProtocol
