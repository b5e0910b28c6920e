import BpsProtocol.Lib.Machine
import BpsProtocol.Ownable

/-! `BPSLockingVault`: fixed-term locks of the pilot token.
The vault's world is the current block, the ledger of the locked token and the vault's
own storage.  Each entry point returns the next world or reverts. -/
namespace BpsProtocol
namespace LockingVault

open Checked Mapping Erc20 Ownable

def bpsDenominator : ℕ := 10000
def duration7d : ℕ := 7*86400
def duration14d : ℕ := 14*86400
def duration21d : ℕ := 21*86400
def duration30d : ℕ := 30*86400
def multiplierUnlockedBps : ℕ := 10000
def multiplier7dBps : ℕ := 11000
def multiplier14dBps : ℕ := 12500
def multiplier21dBps : ℕ := 15000
def multiplier30dBps : ℕ := 17500
def policyVersionU16 : ℕ := 1

structure LockPosition where
  principal : ℕ
  startTime : ℕ
  duration : ℕ
  unlockTime : ℕ
  multiplierBps : ℕ
  policyVersion : ℕ
  withdrawnAt : ℕ
  exists_ : Bool
  withdrawn : Bool
  deriving DecidableEq

/-- An unwritten storage slot. -/
def LockPosition.unset : LockPosition := ⟨0,0,0,0,0,0,0,false,false⟩

inductive Event
  | lockCreated (account : Address)
      (lockId principal startTime duration unlockTime multiplierBps policyVersion : ℕ)
  | lockWithdrawn (account : Address) (lockId principal withdrawnAt : ℕ) (emergency : Bool)
  | emergencyExitEnabled (caller : Address) (timestamp : ℕ)
  deriving DecidableEq

/-- An emitted event with the number of its block. -/
structure Log where
  blockNumber : ℕ
  event : Event
  deriving DecidableEq

inductive Error
  | zeroAmount
  | unsupportedPolicyDuration (duration : ℕ)
  | zeroDurationLock
  | fundingAmountMismatch (declared received : ℕ)
  | emergencyExitAlreadyEnabled
  | newLocksDisabled
  | lockNotFound
  | lockNotExpired
  | lockAlreadyWithdrawn
  | safeCastOverflowedUintDowncast (bits value : ℕ)
  | panic
  | ownable (e : Ownable.Error)
  | token (e : Erc20.Error)
  | noSuchCall
  deriving DecidableEq

structure Storage where
  ownership : Ownership
  lockCount : Address → ℕ
  positions : Address → ℕ → LockPosition
  lockedPrincipal : Address → ℕ
  totalLockedPrincipal : ℕ
  emergencyExitEnabled : Bool
  emergencyExitEnabledAt : ℕ
  logs : List Log

/-- The storage after construction. -/
def Storage.deployed (initialOwner : Address) : Storage where
  ownership := ⟨initialOwner,0⟩
  lockCount := fun _ => 0
  positions := fun _ _ => .unset
  lockedPrincipal := fun _ => 0
  totalLockedPrincipal := 0
  emergencyExitEnabled := false
  emergencyExitEnabledAt := 0
  logs := []

structure Block where
  number : ℕ
  timestamp : ℕ
  deriving DecidableEq

structure World where
  block : Block
  bps : Token
  vault : Storage

def policyMultiplierBps (duration : ℕ) : Except Error ℕ :=
  if duration = 0 then .ok multiplierUnlockedBps
  else if duration = duration7d then .ok multiplier7dBps
  else if duration = duration14d then .ok multiplier14dBps
  else if duration = duration21d then .ok multiplier21dBps
  else if duration = duration30d then .ok multiplier30dBps
  else .error (.unsupportedPolicyDuration duration)

/-- `block.timestamp.toUint64()` -/
def timestampUint64 (block : Block) : Except Error ℕ :=
  toUint64 (.safeCastOverflowedUintDowncast 64 block.timestamp) block.timestamp

/-- `_recordLock` -/
def recordLock (block : Block) (v : Storage) (account : Address)
    (lockId amount duration multiplierBps : ℕ) : Except Error Storage := do
  let startTime ← timestampUint64 block
  revertIf (uint64Bound ≤ startTime+duration) .panic
  let unlockTime := startTime+duration
  let nextId ← add .panic lockId 1
  let locked ← add .panic (v.lockedPrincipal account) amount
  let total ← add .panic v.totalLockedPrincipal amount
  return { v with
    positions := set₂ v.positions account lockId
      { principal := amount, startTime, duration, unlockTime, multiplierBps,
        policyVersion := policyVersionU16, withdrawnAt := 0, exists_ := true, withdrawn := false }
    lockCount := set v.lockCount account nextId
    lockedPrincipal := set v.lockedPrincipal account locked
    totalLockedPrincipal := total
    logs := ⟨block.number,.lockCreated account lockId amount startTime duration unlockTime
      multiplierBps policyVersionU16⟩::v.logs }

/-- The new lock id is returned beside the next world. -/
def createLock (here : Address) (w : World) (sender : Address) (amount duration : ℕ) :
    Except Error (ℕ × World) := do
  revertIf (w.vault.emergencyExitEnabled = true) .newLocksDisabled
  revertIf (amount = 0) .zeroAmount
  revertIf (duration = 0) .zeroDurationLock
  let multiplierBps ← policyMultiplierBps duration
  let lockId := w.vault.lockCount sender
  let balanceBefore := w.bps.balanceOf here
  let bps ← (w.bps.transferFrom here sender here amount).mapError .token
  let received ← sub .panic (bps.balanceOf here) balanceBefore
  revertIf (received ≠ amount) (.fundingAmountMismatch amount received)
  let vault ← recordLock w.block w.vault sender lockId amount duration multiplierBps
  return (lockId,{ w with bps, vault })

def withdraw (here : Address) (w : World) (sender : Address) (lockId : ℕ) :
    Except Error World := do
  let v := w.vault
  let p := v.positions sender lockId
  revertIf (p.exists_ = false) .lockNotFound
  revertIf (p.withdrawn = true) .lockAlreadyWithdrawn
  revertIf (v.emergencyExitEnabled = false ∧ w.block.timestamp < p.unlockTime) .lockNotExpired
  let withdrawnAt ← timestampUint64 w.block
  let locked ← sub .panic (v.lockedPrincipal sender) p.principal
  let total ← sub .panic v.totalLockedPrincipal p.principal
  let bps ← (w.bps.transfer here sender p.principal).mapError .token
  return { w with
    bps
    vault := { v with
      positions := set₂ v.positions sender lockId { p with withdrawn := true, withdrawnAt }
      lockedPrincipal := set v.lockedPrincipal sender locked
      totalLockedPrincipal := total
      logs := ⟨w.block.number,
        .lockWithdrawn sender lockId p.principal withdrawnAt v.emergencyExitEnabled⟩::v.logs } }

def enableEmergencyExit (w : World) (sender : Address) : Except Error World := do
  (checkOwner w.vault.ownership sender).mapError .ownable
  revertIf (w.vault.emergencyExitEnabled = true) .emergencyExitAlreadyEnabled
  let activatedAt ← timestampUint64 w.block
  return { w with
    vault := { w.vault with
      emergencyExitEnabled := true
      emergencyExitEnabledAt := activatedAt
      logs := ⟨w.block.number,.emergencyExitEnabled sender activatedAt⟩::w.vault.logs } }

def positionWeightAt (v : Storage) (account : Address) (lockId timestamp : ℕ) :
    Except Error ℕ :=
  let p := v.positions account lockId
  if p.exists_ = false then .ok 0
  else if timestamp < p.startTime then .ok 0
  else if p.withdrawn = true ∧ p.withdrawnAt ≤ timestamp then .ok 0
  else
    let bonusActive := timestamp < p.unlockTime ∧
      ¬(v.emergencyExitEnabled = true ∧ v.emergencyExitEnabledAt ≤ timestamp)
    mulDiv .panic p.principal (if bonusActive then p.multiplierBps else multiplierUnlockedBps)
      bpsDenominator

/-- A transaction at the current block.  `newBlock` lets time pass, `token` is any call of
another account on the locked token: a donation, an approval, a transfer between users. -/
inductive Tx
  | newBlock (elapsed : ℕ)
  | createLock (sender : Address) (amount duration : ℕ)
  | withdraw (sender : Address) (lockId : ℕ)
  | enableEmergencyExit (sender : Address)
  | ownership (sender : Address) (call : Ownable.Call)
  | token (call : Erc20.Call)

def exec (here : Address) (w : World) : Tx → Except Error World
  | .newBlock elapsed =>
    .ok { w with block := ⟨w.block.number+1,w.block.timestamp+elapsed⟩ }
  | .createLock sender amount duration => do
    let (_,w') ← createLock here w sender amount duration
    return w'
  | .withdraw sender lockId => withdraw here w sender lockId
  | .enableEmergencyExit sender => enableEmergencyExit w sender
  | .ownership sender call => do
    let ownership ← (call.exec sender w.vault.ownership).mapError .ownable
    return { w with vault := { w.vault with ownership } }
  | .token call => do
    -- the vault's own calls on the token are those of its functions
    revertIf (call.sender = here) .noSuchCall
    let bps ← (call.exec w.bps).mapError .token
    return { w with bps }

/-- The world in which the vault was just deployed at a fresh address; donations may
already sit there. -/
structure Initial (here : Address) (w : World) : Prop where
  here_ne_zero : here ≠ 0
  storage : ∃ initialOwner, w.vault = .deployed initialOwner
  closed : w.bps.Closed here
  unspent : w.bps.outflows here = []

abbrev Reachable (here : Address) : World → Prop :=
  Machine.Reachable (Initial here) (exec here)

end LockingVault
end BpsProtocol
