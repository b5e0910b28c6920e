import BpsProtocol.Shared

/-! Declarations and the eligibility gate of the application.
A signed declaration is checked against the current policy; the service's answer about the
account is a separate result.  The gate is open in one state only. -/
namespace BpsProtocol
namespace Eligibility

open HexText Shared

def ROBINHOOD_CHAIN_ID : ℕ := 4663

structure TypedDataDomain where
  name : String
  version : String
  chainId : ℕ
  deriving DecidableEq

def DECLARATION_DOMAIN : TypedDataDomain :=
  { name := "BPS Restricted Beta Declarations"
    version := "1"
    chainId := ROBINHOOD_CHAIN_ID }

structure DeclarationMessage where
  wallet : Text
  documentHash : Text
  documentVersion : ℤ
  nonce : ℤ
  expiry : ℤ
  deriving DecidableEq

structure SignedDeclaration where
  message : DeclarationMessage
  signature : Text
  chainId : ℕ
  deriving DecidableEq

structure DeclarationPolicy where
  currentDocumentVersion : ℤ
  currentDocumentHash : Text
  nowSec : ℤ
  usedNonces : List Text

inductive DeclarationRejection
  | wrongChain
  | wrongSigner
  | expired
  | replayedNonce
  | staleDocumentVersion
  | staleDocumentHash
  | badSignature
  deriving DecidableEq

/-- `{ ok: true }` or `{ ok: false, reason }` -/
inductive DeclarationVerdict
  | ok
  | rejected (reason : DeclarationRejection)
  deriving DecidableEq

theorem reject_eq_ok {c : Prop} [Decidable c] {reason : DeclarationRejection}
    {v : DeclarationVerdict} :
    (if c then .rejected reason else v) = DeclarationVerdict.ok ↔ ¬ c ∧ v = .ok := by
  by_cases hc : c <;> simp [hc]

/-- `recoverTypedDataAddress` of the wallet library for the type `Declaration`: the signer
of a message, or no value where it throws. -/
abbrev Recover := TypedDataDomain → DeclarationMessage → Text → Option Text

/-- `${wallet.toLowerCase()}:${nonce}` -/
def nonceKey (message : DeclarationMessage) : Text :=
  toLowerCase message.wallet ++ ':' :: toString10 message.nonce

def verifyDeclaration (recoverTypedDataAddress : Recover) (signed : SignedDeclaration)
    (policy : DeclarationPolicy) : DeclarationVerdict :=
  if signed.chainId ≠ ROBINHOOD_CHAIN_ID then .rejected .wrongChain
  else if signed.message.documentVersion ≠ policy.currentDocumentVersion then
    .rejected .staleDocumentVersion
  else if toLowerCase signed.message.documentHash ≠ toLowerCase policy.currentDocumentHash then
    .rejected .staleDocumentHash
  else if signed.message.expiry ≤ policy.nowSec then .rejected .expired
  else if nonceKey signed.message ∈ policy.usedNonces then .rejected .replayedNonce
  else
    match recoverTypedDataAddress DECLARATION_DOMAIN signed.message signed.signature with
    | none => .rejected .badSignature
    | some recovered =>
      if toLowerCase recovered ≠ toLowerCase signed.message.wallet then .rejected .wrongSigner
      else .ok

/-- Two spellings of one address. -/
def SameAddress (a b : Text) : Prop := toLowerCase a = toLowerCase b

instance (a b : Text) : Decidable (SameAddress a b) :=
  inferInstanceAs (Decidable (toLowerCase a = toLowerCase b))

@[simp] theorem SameAddress.refl (a : Text) : SameAddress a a := Eq.refl _

theorem SameAddress.trans {a b c : Text} (h : SameAddress a b) (h' : SameAddress b c) :
    SameAddress a c := Eq.trans h h'

/-- The signature of the message is the wallet's own. -/
def SignedBy (recoverTypedDataAddress : Recover) (message : DeclarationMessage)
    (signature wallet : Text) : Prop :=
  ∃ signer, recoverTypedDataAddress DECLARATION_DOMAIN message signature = some signer ∧
    SameAddress signer wallet

/-- A declaration is accepted exactly when it is for the current document, on the right
chain, still valid, not used before and signed by the wallet that it names. -/
theorem verifyDeclaration_eq_ok {recover : Recover} {signed : SignedDeclaration}
    {policy : DeclarationPolicy} :
    verifyDeclaration recover signed policy = .ok ↔
      signed.chainId = ROBINHOOD_CHAIN_ID ∧
        signed.message.documentVersion = policy.currentDocumentVersion ∧
        toLowerCase signed.message.documentHash = toLowerCase policy.currentDocumentHash ∧
        policy.nowSec < signed.message.expiry ∧ nonceKey signed.message ∉ policy.usedNonces ∧
        SignedBy recover signed.message signed.signature signed.message.wallet := by
  unfold verifyDeclaration SignedBy SameAddress
  simp only [reject_eq_ok,ne_eq,not_not,not_le]
  cases recover DECLARATION_DOMAIN signed.message signed.signature with
  | none => simp
  | some recovered => simp

inductive EligibilityResult
  | eligible
  | ineligible
  | unknown
  deriving DecidableEq

structure WalletContext where
  address : Option Text
  chainId : Option ℕ

inductive EligibilityState
  | walletDisconnected
  | wrongNetwork (chainId : ℕ)
  | connectedUnsigned
  | declarationExpiredOrSuperseded (reason : DeclarationRejection)
  | signedEligibilityUnverified
  | eligible
  | ineligible
  deriving DecidableEq

def eligibilityWriteGate (state : EligibilityState) : Bool := decide (state = .eligible)

def deriveEligibilityState (wallet : WalletContext)
    (declarationVerdict : Option DeclarationVerdict) (eligibility : EligibilityResult) :
    EligibilityState :=
  if wallet.address = none then .walletDisconnected
  else if wallet.chainId ≠ some ROBINHOOD_CHAIN_ID then .wrongNetwork (wallet.chainId.getD 0)
  else
    match declarationVerdict with
    | none => .connectedUnsigned
    | some (.rejected reason) =>
      if reason = .expired ∨ reason = .staleDocumentVersion ∨ reason = .staleDocumentHash then
        .declarationExpiredOrSuperseded reason
      else .connectedUnsigned
    | some .ok =>
      match eligibility with
      | .eligible => .eligible
      | .ineligible => .ineligible
      | .unknown => .signedEligibilityUnverified

theorem deriveEligibilityState_eq_eligible {wallet : WalletContext}
    {verdict : Option DeclarationVerdict} {eligibility : EligibilityResult} :
    deriveEligibilityState wallet verdict eligibility = .eligible ↔
      (∃ a, wallet.address = some a) ∧ wallet.chainId = some ROBINHOOD_CHAIN_ID ∧
        verdict = some .ok ∧ eligibility = .eligible := by
  unfold deriveEligibilityState
  cases wallet.address with
  | none => simp
  | some a =>
    by_cases hchain : wallet.chainId = some ROBINHOOD_CHAIN_ID
    · match verdict with
      | none => simp [hchain]
      | some (.rejected reason) =>
        simp only [hchain,ne_eq,not_true,reduceCtorEq,if_false]
        split <;> simp
      | some .ok => cases eligibility <;> simp [hchain]
    · simp [hchain]

theorem gate_eq_true {state : EligibilityState} :
    eligibilityWriteGate state = true ↔ state = .eligible := by
  simp [eligibilityWriteGate]

end Eligibility
end BpsProtocol
