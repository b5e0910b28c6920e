import BpsProtocol.Erc20
import BpsProtocol.Lib.DecimalText

/-! Addresses, integers and constants of the off-chain engine.
A bigint is an integer, a string the list of its characters.  Canonical addresses are in
lower case, canonical numbers in base ten. -/
namespace BpsProtocol

/-- The codes of `fail`, each with the values its message shows, and `library` for what a
package throws. -/
inductive ProofOfDistributionError
  | library
  | invalidAddress (field value : Text)
  | negativeValue (field : Text) (value : ℤ)
  | badDenominator (denom : ℤ)
  | emptyTree
  | zeroLeaf (wallet asset : Text)
  | duplicateEntitlement (cycleId : ℤ) (wallet asset : Text)
  | invalidFixture
  | epochBoundary (field : Text)
  | blockOrder (field : Text)
  | snapshotAfterFinalized
  | claimPeriod
  | duplicateExclusion (address : Text)
  | duplicateHolder (wallet : Text)
  | chainMismatch (chainId : Text)
  | transferOutOfEpoch (timestamp : Text)
  | unsupportedTier (tier : Text)
  | unsupportedDuration (wallet : Text)
  | badWithdrawal (wallet : Text)
  | duplicateAsset (tokenAddress : Text)
  | conflictingLog (identity : Text)
  | ambiguousOrder
  | nonmonotonicTimestamp
  | negativeBalance (wallet identity : Text)
  | lockExceedsBalance (wallet : Text)
  | allocConservation (tokenAddress : Text) (equation : String)
  | allocOverflow (tokenAddress : Text)
  | reconConservation (tokenAddress : Text)
  | proofVerification
  deriving DecidableEq

namespace Shared

open HexText

def isHexAddress : Text → Bool
  | '0' :: 'x' :: digits => digits.length = 40 && digits.all isDigit
  | _ => false

def normalizeAddress (value field : Text) : Except ProofOfDistributionError Text :=
  if isHexAddress value then .ok (toLowerCase value) else .error (.invalidAddress field value)

/-- The twenty bytes that an address string spells, in either case. -/
def addressOf (value : Text) : Option Address :=
  if isHexAddress value then some (Fin.ofNat (2^160) (HexText.value (value.drop 2))) else none

/-- The canonical string of an address. -/
def addressText (a : Address) : Text := '0' :: 'x' :: write 40 a.val

def ZERO_ADDRESS : Text := addressText 0

theorem exists_digits {value : Text} (h : isHexAddress value = true) :
    ∃ digits, value = '0' :: 'x' :: digits ∧ digits.length = 40 ∧ ∀ c ∈ digits, isDigit c = true := by
  unfold isHexAddress at h
  split at h
  · rename_i digits
    simp only [Bool.and_eq_true,decide_eq_true_eq,List.all_eq_true] at h
    exact ⟨digits,rfl,h.1,h.2⟩
  · exact absurd h (by decide)

@[simp] theorem isHexAddress_addressText (a : Address) : isHexAddress (addressText a) = true := by
  have h : ∀ c ∈ write 40 a.val, isDigit c = true := isDigit_of_mem_write
  simpa [isHexAddress,addressText] using h

@[simp] theorem addressOf_addressText (a : Address) : addressOf (addressText a) = some a := by
  have hlt : a.val < 16^40 := a.isLt.trans_eq (by norm_num)
  rw [addressOf,if_pos (isHexAddress_addressText a),addressText,List.drop_succ_cons,
    List.drop_succ_cons,List.drop_zero,value_write hlt]
  simp

/-- Lower case forgets the spelling of an address and nothing else. -/
theorem toLowerCase_eq_addressText {value : Text} {a : Address} (h : addressOf value = some a) :
    toLowerCase value = addressText a := by
  unfold addressOf at h
  split at h
  · rename_i hhex
    obtain ⟨digits,rfl,hlen,hdigits⟩ := exists_digits hhex
    have hlt : HexText.value digits < 2^160 := by
      have := value_lt hdigits
      rw [hlen] at this
      exact this.trans_eq (by norm_num)
    have hval : a.val = HexText.value digits := by
      rw [← Option.some.inj h]
      exact Nat.mod_eq_of_lt hlt
    have hwrite := write_value hdigits
    rw [hlen] at hwrite
    rw [addressText,hval,hwrite]
    rfl
  · exact absurd h (by simp)

theorem addressText_injective {a b : Address} (h : addressText a = addressText b) : a = b := by
  have := congrArg addressOf h
  simpa using this

theorem normalizeAddress_eq_ok {value field t : Text} :
    normalizeAddress value field = .ok t ↔ ∃ a, addressOf value = some a ∧ t = addressText a := by
  constructor
  · intro h
    unfold normalizeAddress at h
    split at h
    · rename_i hhex
      have ha : addressOf value = some (Fin.ofNat (2^160) (HexText.value (value.drop 2))) :=
        if_pos hhex
      exact ⟨_,ha,(Except.ok.inj h).symm.trans (toLowerCase_eq_addressText ha)⟩
    · exact absurd h (by simp)
  · rintro ⟨a,ha,rfl⟩
    have hhex : isHexAddress value = true := by
      by_contra hne
      rw [addressOf,if_neg hne] at ha
      exact absurd ha (by simp)
    rw [normalizeAddress,if_pos hhex,toLowerCase_eq_addressText ha]

/-- `n.toString(10)` -/
def toString10 (n : ℤ) : Text :=
  if n < 0 then '-' :: Nat.toDigits 10 n.natAbs else Nat.toDigits 10 n.natAbs

/-- `BigInt(s)` for a string of decimal digits. -/
def bigInt (s : Text) : ℤ := (Nat.ofDigitChars 10 s 0 : ℕ)

/-- `/^(0|[1-9][0-9]*)$/` -/
def isNonNegativeIntegerString : Text → Bool
  | [] => false
  | c::digits => c.isDigit && digits.all Char.isDigit && (c ≠ '0' || digits = [])

@[simp] theorem bigInt_toString10 {n : ℤ} (h : 0 ≤ n) : bigInt (toString10 n) = n := by
  rw [toString10,if_neg (by omega),bigInt,Nat.ofDigitChars_ten_toDigits]
  exact Int.natAbs_of_nonneg h

theorem toString10_injective {n m : ℤ} (h : toString10 n = toString10 m) : n = m :=
  DecimalText.signed_injective h

theorem bar_notMem_toString10 (n : ℤ) : '|' ∉ toString10 n := fun hmem =>
  absurd (DecimalText.signed_chars n '|' hmem) (by decide)

def toDecimalString (value : ℤ) (field : Text) : Except ProofOfDistributionError Text :=
  if value < 0 then .error (.negativeValue field value) else .ok (toString10 value)

/-- Division of bigints drops the fraction. -/
def mulDivFloor (a b denom : ℤ) : Except ProofOfDistributionError ℤ :=
  if denom ≤ 0 then .error (.badDenominator denom) else .ok ((a*b).tdiv denom)

theorem toDecimalString_eq_ok {value : ℤ} {field s : Text} :
    toDecimalString value field = .ok s ↔ 0 ≤ value ∧ s = toString10 value := by
  unfold toDecimalString
  split <;> simp only [reduceCtorEq,Except.ok.injEq,false_iff,not_and]
  · omega
  · constructor
    · intro h
      exact ⟨by omega,h.symm⟩
    · intro h
      exact h.2.symm

theorem mulDivFloor_eq_ok {a b denom q : ℤ} :
    mulDivFloor a b denom = .ok q ↔ 0 < denom ∧ q = (a*b).tdiv denom := by
  unfold mulDivFloor
  split <;> simp only [reduceCtorEq,Except.ok.injEq,false_iff,not_and]
  · omega
  · constructor
    · intro h
      exact ⟨by omega,h.symm⟩
    · intro h
      exact h.2.symm

structure CycleConfig where
  schemaVersion : Text
  cycleId : ℤ
  chainId : ℤ
  bpsTokenAddress : Text
  claimManagerAddress : Text
  economicsVersion : Text
  rewardPolicyVersion : Text
  epochId : ℤ
  epochStart : ℤ
  epochEnd : ℤ
  startBlock : ℤ
  endBlock : ℤ
  snapshotBlock : ℤ
  finalizedBlock : ℤ
  confirmationDepth : ℤ
  claimStart : ℤ
  claimDeadline : ℤ
  termsVersion : Text
  eligibilityPolicyVersion : Text
  restrictedJurisdictionPolicyVersion : Text
  deriving DecidableEq

/-- One wallet, one asset, one cycle. -/
structure Entitlement where
  cycleId : ℤ
  wallet : Text
  asset : Text
  amount : ℤ
  deriving DecidableEq

end Shared
end BpsProtocol
