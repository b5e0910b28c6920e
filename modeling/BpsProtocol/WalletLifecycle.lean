import BpsProtocol.Lib.Async
import BpsProtocol.Lib.Utf16
import BpsProtocol.TradePreview

/-! The transaction lifecycle of the wallet: approve, simulate, submit, confirm, reconcile.
The node and the wallet answer as they like.  A confirmation may be that of a transaction which
took the nonce of the submitted one. -/
namespace BpsProtocol
namespace Wallet

open Async HexText Utf16

inductive LifecycleStep
  | validate
  | readAllowance
  | approve
  | awaitApproval
  | rereadAllowance
  | simulate
  | submit
  | awaitReceipt
  | reconcile
  | done
  deriving DecidableEq

structure ApprovalRequirement where
  token : Text
  spender : Text
  amount : ℤ
  deriving DecidableEq

/-- `reconcile` tells whether the caller brings a check of the state after the confirmation. -/
structure ActionRequest where
  target : Text
  data : Text
  value : Option ℤ
  approval : Option ApprovalRequirement
  confirmations : ℕ
  reconcile : Bool

structure LifecycleResult where
  ok : Bool
  step : LifecycleStep
  hash : Option Text
  reason : Option JsString
  deriving DecidableEq

structure Transaction where
  account : Text
  target : Text
  data : Text
  value : ℤ
  deriving DecidableEq

structure Clients where
  account : Text
  walletChain : Option ℕ

/-! ## What is awaited -/

inductive ReplacementReason
  | cancelled
  | replaced
  | repriced
  deriving DecidableEq

inductive ReceiptStatus
  | success
  | reverted
  deriving DecidableEq

/-- A receipt at the required depth, and the reasons that `onReplaced` was called with before.
The code does not see which transaction the receipt is of. -/
structure Confirmation where
  replacements : List ReplacementReason
  status : ReceiptStatus
  transaction : Transaction

inductive Query
  | getChainId
  | allowance (token owner spender : Text)
  | sendTransaction (chain : Option ℕ) (t : Transaction)
  | waitForTransactionReceipt (hash : Text) (confirmations : ℕ)
  | call (t : Transaction)
  | reconcile

abbrev Answer : Query → Type
  | .getChainId => ℕ
  | .allowance _ _ _ => ℤ
  | .sendTransaction _ _ => Text
  | .waitForTransactionReceipt _ _ => Confirmation
  | .call _ => Unit
  | .reconcile => Bool

abbrev Awaited : Interface := ⟨Query,Answer⟩

/-- A call of the clients, with the steps reported so far; what is thrown is known by its
message. -/
abbrev Script (α : Type) := Prog Awaited (List LifecycleStep) Unit JsString α

def await (q : Query) : Script (Answer q) := Prog.await (I := Awaited) q

def attempt (q : Query) : Script (Except JsString (Answer q)) := Prog.attempt (I := Awaited) q

def report (s : LifecycleStep) : Script Unit := Prog.modify (· ++ [s])

/-! ## The lifecycle -/

/-- `s.toLowerCase()` on the letters that are searched for. -/
def lowerUnit (u : CodeUnit) : CodeUnit :=
  if 65 ≤ u.val ∧ u.val ≤ 90 then Fin.ofNat _ (u.val+32) else u

def rejectionReason (raw : JsString) : JsString :=
  let msg := raw.map lowerUnit
  if lit "reject" <:+: msg ∨ lit "denied" <:+: msg then lit "user-rejected"
  else if lit "revert" <:+: msg then lit "reverted"
  else if lit "replac" <:+: msg then lit "replaced"
  else lit "failed: " ++ (raw.takeWhile (·.val ≠ 10)).take 120

inductive ConfirmOutcome
  | receipt (status : ReceiptStatus)
  | cancelled
  | confirmError (reason : JsString)

/-- The last reason counts. -/
def waitConfirmed (hash : Text) (confirmations : ℕ) : Script ConfirmOutcome := do
  match ← attempt (.waitForTransactionReceipt hash confirmations) with
  | .error e => return .confirmError (rejectionReason e)
  | .ok c =>
    if c.replacements.getLast? = some .cancelled then return .cancelled
    else return .receipt c.status

def fail (step : LifecycleStep) (hash : Option Text) (reason : JsString) : LifecycleResult :=
  { ok := false
    step := step
    hash := hash
    reason := some reason }

/-- What viem brings to the encoding: the hash for the checksum of an address, and the message
of its refusal. -/
structure Encoder where
  keccak256 : Hash
  refusal : ApprovalRequirement → JsString

/-- `approve(address spender, uint256 amount)`, for the exact amount. -/
def encodeApprove (keccak256 : Hash) (a : ApprovalRequirement) : Option Text := do
  let spender ← Trading.addressArgument keccak256 a.spender
  let amount ← SnapshotPipeline.uintArgument 256 a.amount
  return "0x095ea7b3".toList ++ write 64 spender.val ++ write 64 amount

def approvalTransaction (account : Text) (a : ApprovalRequirement) (data : Text) : Transaction :=
  { account := account
    target := a.token
    data := data
    value := 0 }

def ActionRequest.transaction (req : ActionRequest) (account : Text) : Transaction :=
  { account := account
    target := req.target
    data := req.data
    value := req.value.getD 0 }

section Lifecycle

variable (E : Encoder) (clients : Clients) (req : ActionRequest)

def currentAllowance (a : ApprovalRequirement) : Script ℤ :=
  await (.allowance a.token clients.account a.spender)

/-- The transaction is encoded inside the `try` that sends it. -/
def sendApproval (a : ApprovalRequirement) : Script (Except JsString Text) :=
  match encodeApprove E.keccak256 a with
  | none => return .error (E.refusal a)
  | some data =>
    attempt (.sendTransaction clients.walletChain (approvalTransaction clients.account a data))

/-- The approval phase; it ends the lifecycle with a result, or lets it go on. -/
def approve (a : ApprovalRequirement) : Script (Option LifecycleResult) := do
  report .readAllowance
  let current ← currentAllowance clients a
  if current < a.amount then do
    report .approve
    match ← sendApproval E clients a with
    | .error e => return some (fail .approve none (rejectionReason e))
    | .ok approveHash => do
      report .awaitApproval
      match ← waitConfirmed approveHash req.confirmations with
      | .cancelled => return some (fail .awaitApproval none (lit "approval-cancelled-replacement"))
      | .confirmError reason =>
        return some (fail .awaitApproval none (lit "confirm-error:" ++ reason))
      | .receipt .reverted => return some (fail .awaitApproval none (lit "approval-reverted"))
      | .receipt .success => do
        report .rereadAllowance
        let now ← currentAllowance clients a
        if now < a.amount then
          return some (fail .rereadAllowance none (lit "allowance-insufficient"))
        else return none
  else return none

/-- The state check of the caller; what it throws counts as false. -/
def reconcileState : Script Bool := do
  match ← attempt .reconcile with
  | .error _ => return false
  | .ok reconciled => return reconciled

def done (hash : Text) : Script LifecycleResult := do
  report .done
  return { ok := true, step := .done, hash := some hash, reason := none }

/-- From the simulation to the end. -/
def submit : Script LifecycleResult := do
  report .simulate
  match ← attempt (.call (req.transaction clients.account)) with
  | .error e => return fail .simulate none (lit "simulation-failed:" ++ rejectionReason e)
  | .ok _ => do
    report .submit
    match ← attempt (.sendTransaction clients.walletChain (req.transaction clients.account)) with
    | .error e => return fail .submit none (rejectionReason e)
    | .ok hash => do
      report .awaitReceipt
      match ← waitConfirmed hash req.confirmations with
      | .cancelled => return fail .awaitReceipt (some hash) (lit "cancelled-replacement")
      | .confirmError reason =>
        return fail .awaitReceipt (some hash) (lit "confirm-error:" ++ reason)
      | .receipt .reverted => return fail .awaitReceipt (some hash) (lit "reverted")
      | .receipt .success => do
        report .reconcile
        if req.reconcile then do
          let reconciled ← reconcileState
          if reconciled then done hash
          else return fail .reconcile (some hash) (lit "reconciliation-failed")
        else done hash

def ensureApproval : Script (Option LifecycleResult) :=
  match req.approval with
  | none => return none
  | some a => approve E clients req a

def runActionLifecycle : Script LifecycleResult := do
  report .validate
  let chainId ← await .getChainId
  if chainId ≠ Eligibility.ROBINHOOD_CHAIN_ID then return fail .validate none (lit "wrong-chain")
  else do
    match ← ensureApproval E clients req with
    | some result => return result
    | none => submit clients req

end Lifecycle

end Wallet
end BpsProtocol
