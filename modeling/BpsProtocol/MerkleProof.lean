import BpsProtocol.Erc20
import BpsProtocol.Lib.Bytes
import BpsProtocol.Lib.MerkleTree

/-! Merkle proofs over 32-byte words, and the leaf of a claim.
The hash of the chain is a parameter.  A leaf is the double hash of six encoded words, an
inner node the hash of its sorted children. -/
namespace BpsProtocol

abbrev Uint256 := Fin (2^256)
abbrev Bytes32 := Fin (2^256)

instance neZero_word : NeZero (2^256) := ⟨by norm_num⟩

/-- `keccak256` -/
abbrev Hash := Bytes → Bytes32

namespace MerkleProof

def wordBytes (x : Bytes32) : Bytes := Bytes.bigEndian 32 x.val

@[simp] theorem wordBytes_length (x : Bytes32) : (wordBytes x).length = 32 := by
  simp [wordBytes]

theorem wordBytes_injective {x y : Bytes32} (h : wordBytes x = wordBytes y) : x = y := by
  apply Fin.ext
  refine Bytes.bigEndian_injective ?_ ?_ h
  · exact x.isLt.trans_eq (by norm_num)
  · exact y.isLt.trans_eq (by norm_num)

/-- An address as a left-padded word. -/
def addressWord (a : Address) : Bytes32 := a.castLE (Nat.pow_le_pow_right (by decide) (by decide))

theorem addressWord_injective {a b : Address} (h : addressWord a = addressWord b) : a = b :=
  Fin.castLE_injective _ h

section Proofs

variable (keccak256 : Hash)

/-- `Hashes.efficientKeccak256` -/
def efficientKeccak256 (a b : Bytes32) : Bytes32 := keccak256 (wordBytes a ++ wordBytes b)

def commutativeKeccak256 (a b : Bytes32) : Bytes32 :=
  if a < b then efficientKeccak256 keccak256 a b else efficientKeccak256 keccak256 b a

theorem commutativeKeccak256_comm (a b : Bytes32) :
    commutativeKeccak256 keccak256 a b = commutativeKeccak256 keccak256 b a := by
  unfold commutativeKeccak256
  rcases lt_trichotomy a b with h | rfl | h
  · rw [if_pos h,if_neg h.not_gt]
  · rfl
  · rw [if_neg h.not_gt,if_pos h]

def processProof (proof : List Bytes32) (leaf : Bytes32) : Bytes32 :=
  MerkleTree.processProof (commutativeKeccak256 keccak256) leaf proof

def verify (proof : List Bytes32) (root leaf : Bytes32) : Bool :=
  processProof keccak256 proof leaf = root

theorem verify_eq_true {proof : List Bytes32} {root leaf : Bytes32} :
    verify keccak256 proof root leaf = true ↔ processProof keccak256 proof leaf = root := by
  simp [verify]

end Proofs

/-- The tuple that a claim leaf commits to. -/
structure Leaf where
  chainId : Uint256
  claimManager : Address
  cycleId : Uint256
  claimant : Address
  asset : Address
  amount : Uint256
  deriving DecidableEq

namespace Leaf

def words (l : Leaf) : List Bytes32 :=
  [l.chainId,addressWord l.claimManager,l.cycleId,addressWord l.claimant,addressWord l.asset,
    l.amount]

/-- `abi.encode` of six static words. -/
def encode (l : Leaf) : Bytes := l.words.flatMap wordBytes

/-- `keccak256(bytes.concat(keccak256(abi.encode(..))))` -/
def hash (keccak256 : Hash) (l : Leaf) : Bytes32 := keccak256 (wordBytes (keccak256 l.encode))

theorem words_injective {l l' : Leaf} (h : l.words = l'.words) : l = l' := by
  cases l
  cases l'
  simp only [words,List.cons.injEq,and_true] at h
  obtain ⟨rfl,hm,rfl,hc,ha,rfl⟩ := h
  rw [addressWord_injective hm,addressWord_injective hc,addressWord_injective ha]

theorem encode_injective {l l' : Leaf} (h : l.encode = l'.encode) : l = l' :=
  words_injective (Bytes.flatMap_injective (by decide) wordBytes_length (fun _ _ => wordBytes_injective) h)

@[simp] theorem encode_length (l : Leaf) : l.encode.length = 192 := by
  simp [encode,words]

end Leaf
/-- A small stand-in for the hash of the chain, for runs on fixed inputs. -/
def toyHash : Hash := fun bytes =>
  Fin.ofNat (2^256) (bytes.foldl (fun acc b => acc*257+b.toNat+1) 0)

end MerkleProof
end BpsProtocol
